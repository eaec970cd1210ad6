import TunnelRelay.Flow.Tcp.Basic

/-!
# Packets of a TCP flow for the device

Every packet carries the flow's current numbers and the current free room as window. A packet without
payload that the outlet refuses is not kept: the device recovers from its loss.
-/

namespace TunnelRelay.TcpFlow

variable {σ : Type} [Outlet σ]

/-- Writes flags, numbers and window into the header of the packets to come. -/
def prepareHeader (flags : TcpFlags) : Act TcpFlow σ Unit := do
  let f ← Act.self
  let window ← narrow16 f.windowToGrant
  Act.setSelf { f with
    advertised := window
    reply := f.reply.editTcp fun header =>
      (((header.setFlags flags).setSequence f.sequence).setAcknowledgement f.expected).setWindow
        window }

def sendControl (flags : TcpFlags) : Act TcpFlow σ Unit := do
  prepareHeader flags
  let (packet, reply) ← (← Act.self).reply.withoutPayload
  Act.modifySelf fun f => { f with reply }
  say (.sending (← packet.describe))
  if ← Act.offer packet.bytes then
    return ()
  else
    say (.controlDropped flags)

/-- Refuses to go on with the flow. A device that has not seen an answer yet accepts a reset only if
it acknowledges its request. -/
def reset : Act TcpFlow σ Unit := do
  let f ← Act.self
  if f.isClosed then
    return ()
  else
    say .resetting
    sendControl (if f.phase = .synSent then .rst ∪ .ack else .rst)
    close

/-- Sends the flow's own end, which takes one sequence number. -/
def sendFin (next : Phase) : Act TcpFlow σ Unit := do
  sendControl (.fin ∪ .ack)
  Act.modifySelf fun f => { f with sequence := f.sequence + 1 }
  setPhase next

/-- Sends the flow's own end once the socket is finished and all it delivered was taken. -/
def maybeSendFin : Act TcpFlow σ Unit := do
  let f ← Act.self
  if f.remoteClosed && !f.pending then
    match f.phase with
    | .established => sendFin .finWait1
    | .closeWait => sendFin .lastAck
    | _ => return ()
  else
    return ()

/-- Tells the socket that there is no more to write, once the device is finished and all it sent was
written. -/
def maybeShutWrite : Act TcpFlow σ Unit := do
  let f ← Act.self
  if f.deviceClosed && !f.writeShut && f.ring.isEmpty && !f.isClosed then
    Act.modifySelf fun f => { f with writeShut := true }
    if let some kind ← Act.call (Host.shutdownWrite f.socket) then
      say (.shutdownFailed (.host kind))
  else
    return ()

end TunnelRelay.TcpFlow
