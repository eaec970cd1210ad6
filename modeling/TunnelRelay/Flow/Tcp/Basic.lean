import TunnelRelay.Config
import TunnelRelay.Outlet
import TunnelRelay.Registration
import TunnelRelay.Reply
import TunnelRelay.Ring.Stream

/-!
# TCP flows

A TCP flow of the device ends at the relay, which carries its bytes over a socket of the host.
Towards the device the relay is the passive end of the connection, just enough of it for the device
to do the rest: segments out of order are ignored, because the device sends them again, and nothing
sent to the device is ever sent again, because the tunnel loses nothing. At most one data packet
waits for room on the way out; until it was taken the socket is not read.
-/

namespace TunnelRelay

/-- The fields of a TCP packet that a flow acts on. -/
structure Segment where
  flags : TcpFlags
  sequence : UInt32
  acknowledgement : UInt32
  window : UInt16
  payload : Bytes
  deriving DecidableEq

def Segment.ofPacket (packet : Packet) : Checked (Option Segment) := do
  match ← packet.tcp with
  | none => return none
  | some header =>
    return some {
      flags := header.flags
      sequence := header.sequence
      acknowledgement := header.acknowledgement
      window := header.window
      payload := (← packet.payload).getD [] }

structure TcpFlow where
  key : FlowKey
  socket : SocketId
  registration : Registration
  reply : Reply
  /-- Bytes from the device that the socket has not taken yet. -/
  ring : StreamRing
  /-- The longest payload of a packet for the device. -/
  maxPayload : Nat
  phase : Phase := .initial
  /-- The sequence number of the next byte for the device. -/
  sequence : UInt32 := 0
  /-- The sequence number expected next from the device. -/
  expected : UInt32 := 0
  /-- What the device acknowledged last. -/
  confirmed : UInt32 := 0
  /-- The window that the device granted with it. -/
  window : UInt16 := 0
  /-- The window that the device was granted last. -/
  advertised : UInt16 := 0
  /-- The socket has no more to read. -/
  remoteClosed : Bool := false
  /-- The device has no more to send. -/
  deviceClosed : Bool := false
  /-- The socket was told that there is no more to write. -/
  writeShut : Bool := false
  /-- The latest data packet waits for room on the way out. -/
  pending : Bool := false

namespace TcpFlow

variable {α σ : Type}

/-- What the device can still take: the part of its window that nothing unconfirmed fills. Numbers
that make no sense together count as no room. -/
def roomAtDevice (f : TcpFlow) : Nat :=
  let room := f.confirmed + f.window.toUInt32 - f.sequence
  if f.window.toUInt32 < room then 0 else room.toNat

/-- Whether the socket may be read. -/
def mayRead (f : TcpFlow) : Bool := f.phase.sendsPayload && !f.remoteClosed && !f.pending

/-- The window to grant to the device: the free room in the ring, as far as the field can say. -/
def windowToGrant (f : TcpFlow) : Nat := min f.ring.remaining 0xffff

def wanted (f : TcpFlow) : Option Interest :=
  if f.phase.isConnecting then some .writable else Interest.of? f.mayRead (!f.ring.isEmpty)

def isClosed (f : TcpFlow) : Bool := f.phase == .closed

/-- Starts to connect to the flow's destination. The request shapes the replies and is not handled
here. -/
def start (session : Nat) (key : FlowKey) (request : Packet) (config : Config) :
    Act α σ (Except Failure TcpFlow) := do
  match ← Reply.ofRequest request with
  | none => return .error .noFlow
  | some reply =>
    match ← Act.call (Host.connect key.destination) with
    | .error kind => return .error (.host kind)
    | .ok socket =>
      match ← Registration.enter socket (some .writable) (.flow session key) with
      | .error kind =>
        Act.tell (Host.close socket)
        return .error (.host kind)
      | .ok registration =>
        Act.note (.flow key .connecting)
        return .ok {
          key, socket, registration, reply
          ring := ← StreamRing.ofCapacity config.streamCapacity
          maxPayload := config.maxTcpPayload }

def say (notice : FlowNotice) : Act TcpFlow σ Unit := do
  Act.note (.flow (← Act.self).key notice)

def setPhase (phase : Phase) : Act TcpFlow σ Unit := do
  say (.phaseChange (← Act.self).phase phase)
  Act.modifySelf fun f => { f with phase }

/-- Ends the flow. A closed flow stays as it is. -/
def close : Act TcpFlow σ Unit := do
  let f ← Act.self
  if f.isClosed then
    return ()
  else
    setPhase .closed
    let registration ← f.registration.cancel f.socket
    Act.modifySelf fun f => { f with registration }

end TcpFlow

end TunnelRelay
