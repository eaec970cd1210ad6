/-!
# Failures

What a host reports when a call cannot be carried out, and the failures that the relay itself adds.
-/

namespace TunnelRelay

inductive ErrorKind where
  | wouldBlock
  | interrupted
  | connectionRefused
  | connectionReset
  | connectionAborted
  | notConnected
  | addrInUse
  | addrNotAvailable
  | brokenPipe
  | alreadyExists
  | notFound
  | invalidInput
  | invalidData
  | timedOut
  | writeZero
  | unexpectedEof
  | permissionDenied
  | outOfMemory
  | other
  | hostUnreachable
  | networkUnreachable
  deriving DecidableEq, Repr

namespace ErrorKind

def name : ErrorKind → String
  | wouldBlock => "WouldBlock"
  | interrupted => "Interrupted"
  | connectionRefused => "ConnectionRefused"
  | connectionReset => "ConnectionReset"
  | connectionAborted => "ConnectionAborted"
  | notConnected => "NotConnected"
  | addrInUse => "AddrInUse"
  | addrNotAvailable => "AddrNotAvailable"
  | brokenPipe => "BrokenPipe"
  | alreadyExists => "AlreadyExists"
  | notFound => "NotFound"
  | invalidInput => "InvalidInput"
  | invalidData => "InvalidData"
  | timedOut => "TimedOut"
  | writeZero => "WriteZero"
  | unexpectedEof => "UnexpectedEof"
  | permissionDenied => "PermissionDenied"
  | outOfMemory => "OutOfMemory"
  | other => "Other"
  | hostUnreachable => "HostUnreachable"
  | networkUnreachable => "NetworkUnreachable"

/-- The text of a failure of which nothing but the kind is known. -/
def message : ErrorKind → String
  | wouldBlock => "operation would block"
  | interrupted => "operation interrupted"
  | connectionRefused => "connection refused"
  | connectionReset => "connection reset"
  | connectionAborted => "connection aborted"
  | notConnected => "not connected"
  | addrInUse => "address in use"
  | addrNotAvailable => "address not available"
  | brokenPipe => "broken pipe"
  | alreadyExists => "entity already exists"
  | notFound => "entity not found"
  | invalidInput => "invalid input parameter"
  | invalidData => "invalid data"
  | timedOut => "timed out"
  | writeZero => "write zero"
  | unexpectedEof => "unexpected end of file"
  | permissionDenied => "permission denied"
  | outOfMemory => "out of memory"
  | other => "other error"
  | hostUnreachable => "host unreachable"
  | networkUnreachable => "network unreachable"

def all : List ErrorKind :=
  [wouldBlock, interrupted, connectionRefused, connectionReset, connectionAborted, notConnected,
    addrInUse, addrNotAvailable, brokenPipe, alreadyExists, notFound, invalidInput, invalidData,
    timedOut, writeZero, unexpectedEof, permissionDenied, outOfMemory, other, hostUnreachable,
    networkUnreachable]

def ofName? (name : String) : Option ErrorKind := all.find? fun kind => kind.name == name

end ErrorKind

/-- Why an operation of the relay could not be carried out. -/
inductive Failure where
  | host (kind : ErrorKind)
  /-- A packet that belongs to no flow was to start one. -/
  | noFlow
  /-- A packet in the tunnel declares fewer bytes than its own header takes. -/
  | corruptStream (declared : Nat)
  deriving DecidableEq, Repr

namespace Failure

def kind : Failure → ErrorKind
  | host kind => kind
  | noFlow => .invalidInput
  | corruptStream _ => .invalidData

def message : Failure → String
  | host kind => kind.message
  | noFlow => "packet does not start a TCP or UDP flow"
  | corruptStream declared =>
    "corrupt packet stream: declared packet length " ++ toString declared

end Failure

end TunnelRelay
