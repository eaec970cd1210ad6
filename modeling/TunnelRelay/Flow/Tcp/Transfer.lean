import TunnelRelay.Flow.Tcp.Emission

/-!
# Moving the bytes of a TCP flow

From the socket to the device as far as the device's window and the outlet permit, and from the ring
to the socket as far as the socket permits.
-/

namespace TunnelRelay.TcpFlow

variable {σ : Type} [Outlet σ]

/-- Offers the completed data packet; a refused one waits, and the flow asks to be told. -/
def offerData (packet : Packet) : Act TcpFlow σ Unit := do
  if ← Act.offer packet.bytes then
    return ()
  else
    say .waitingForRoom
    Act.modifySelf fun f => { f with pending := true }
    Act.await (← Act.self).key

/-- Makes a packet of bytes that were read. -/
def deliver (bytes : Bytes) : Act TcpFlow σ Unit := do
  let f ← Act.self
  let reply ← f.reply.commit bytes bytes.length
  let (packet, reply) ← reply.completeData
  say (.towardsDevice bytes.length)
  let length ← narrow32 bytes.length
  Act.modifySelf fun f => { f with reply, sequence := f.sequence + length }
  offerData packet

/-- Notes the end of what the socket delivers. -/
def finishReading : Act TcpFlow σ Unit := do
  say .remoteClosed
  Act.modifySelf fun f => { f with remoteClosed := true }
  maybeSendFin

/-- One read of the socket, if the device has room for it. -/
def readRound : Unit → Act TcpFlow σ (Round Unit Unit) := fun _ => do
  let f ← Act.self
  if !f.mayRead then
    return .done ()
  else if f.roomAtDevice = 0 then
    say .windowFull
    return .done ()
  else
    prepareHeader (.ack ∪ .psh)
    let (size, reply) ← (← Act.self).reply.reserve (min f.roomAtDevice f.maxPayload)
    Act.modifySelf fun f => { f with reply }
    match ← Act.call (Host.read f.socket size) with
    | .ok [] =>
      finishReading
      return .again ()
    | .ok bytes =>
      deliver bytes
      return .again ()
    | .error .wouldBlock => return .done ()
    | .error .interrupted => return .again ()
    | .error kind =>
      say (.readError (.host kind))
      reset
      return .again ()

/-- Moves bytes from the socket to the device. Every round but the last two fills the device's window
further or uses up an arrival. -/
def processReceive : Act TcpFlow σ Unit := do
  let s ← get
  let arrivals := (s.host.socket s.self.socket).arrivals.length
  Act.iterate (s.self.roomAtDevice + arrivals + 2) readRound ()

/-- One write to the socket. `written` counts the bytes taken so far; there is no such number once
the flow was reset. -/
def writeRound (written : Nat) : Act TcpFlow σ (Round Nat (Option Nat)) := do
  let f ← Act.self
  if f.ring.isEmpty then
    return .done (some written)
  else
    match ← Act.call (Host.write f.socket (← f.ring.front)) with
    | .ok [] =>
      say .writeRefused
      reset
      return .done none
    | .ok taken =>
      Act.modifySelf fun f => { f with ring := f.ring.drop taken.length }
      return .again (written + taken.length)
    | .error .wouldBlock => return .done (some written)
    | .error .interrupted => return .again written
    | .error kind =>
      say (.writeError (.host kind))
      reset
      return .done none

/-- Moves bytes from the ring to the socket. Every round but the last removes bytes or uses up a
transfer. A device that was granted no window learns when there is room again. -/
def processSend : Act TcpFlow σ Unit := do
  let s ← get
  let transfers := (s.host.socket s.self.socket).transfers.length
  match ← Act.iterate (s.self.ring.length + transfers + 1) writeRound 0 with
  | none => return ()
  | some written =>
    say (.towardsNetwork written)
    if 0 < written && (← Act.self).advertised == 0 then
      sendControl .ack
    maybeShutWrite

end TunnelRelay.TcpFlow
