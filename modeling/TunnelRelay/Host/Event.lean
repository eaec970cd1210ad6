import TunnelRelay.Host.Notice

/-!
# Events

What a relay does, one event for each call on the host, each packet offered to the device and each
notice. A run of the relay is judged by its events.
-/

namespace TunnelRelay

/-- How a call without a value ended: the kind of its failure, if it failed. -/
abbrev Outcome := Option ErrorKind

abbrev SocketId := Nat

/-- What a socket knows about an error that happened behind its back. -/
inductive PendingError where
  | none
  | present (kind : ErrorKind)
  /-- The question itself failed. -/
  | unknown (kind : ErrorKind)
  deriving DecidableEq, Repr

inductive Event where
  | connect (peer : Endpoint) (outcome : Outcome)
  | openDatagram (localEnd : Endpoint) (outcome : Outcome)
  | connectDatagram (socket : SocketId) (peer : Endpoint) (outcome : Outcome)
  | register (socket : SocketId) (token : Nat) (interest : Interest) (outcome : Outcome)
  | reregister (socket : SocketId) (token : Nat) (interest : Interest) (outcome : Outcome)
  | deregister (socket : SocketId) (outcome : Outcome)
  | read (socket : SocketId) (size : Nat) (result : Except ErrorKind Bytes)
  | receive (socket : SocketId) (size : Nat) (result : Except ErrorKind Bytes)
  | write (socket : SocketId) (offered : Nat) (result : Except ErrorKind Bytes)
  | send (socket : SocketId) (offered : Nat) (result : Except ErrorKind Bytes)
  | takeError (socket : SocketId) (result : PendingError)
  | peerAddress (socket : SocketId) (outcome : Outcome)
  | shutdownWrite (socket : SocketId) (outcome : Outcome)
  | setNoDelay (socket : SocketId) (outcome : Outcome)
  | accept (listener : SocketId) (result : Except ErrorKind SocketId)
  | close (socket : SocketId)
  | poll (timeout : Option Nat)
  | openPoller (outcome : Outcome)
  | openListener (outcome : Outcome)
  | reuseAddress (socket : SocketId) (outcome : Outcome)
  | bind (socket : SocketId) (endpoint : Endpoint) (outcome : Outcome)
  | listen (socket : SocketId) (backlog : Nat) (outcome : Outcome)
  | setNonblocking (socket : SocketId) (outcome : Outcome)
  /-- A packet was offered to the device's side, which took it or had no room. -/
  | offer (packet : Bytes) (taken : Bool)
  /-- A flow asked to be told when there is room again. -/
  | await (key : FlowKey)
  | notice (notice : Notice)

end TunnelRelay
