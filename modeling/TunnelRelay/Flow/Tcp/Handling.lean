import TunnelRelay.Flow.Tcp.Transfer

/-!
# What a TCP flow reacts to

Packets of the device, readiness of the socket, and room on the way out. Each reaction ends by
telling the poller what the flow waits for next.
-/

namespace TunnelRelay.TcpFlow

variable {σ : Type} [Outlet σ]

/-- The first packet of a flow has to ask for a connection. -/
def handleFirst (segment : Segment) : Act TcpFlow σ Unit := do
  if segment.flags.has .syn then
    let initial ← Act.call Host.random
    Act.modifySelf fun f => { f with
      expected := segment.sequence + 1
      sequence := initial
      confirmed := initial
      window := segment.window }
    setPhase .synSent
  else
    say (.firstWithoutSyn segment.flags)
    let length ← narrow32 segment.payload.length
    Act.modifySelf fun f => { f with
      sequence := if segment.flags.has .ack then segment.acknowledgement else f.sequence
      expected := segment.sequence + length }
    reset

/-- A repeated request is accepted until the flow was confirmed to the device. -/
def handleSyn (segment : Segment) : Act TcpFlow σ Unit := do
  let f ← Act.self
  if f.phase = .synSent then
    say (.repeatedSyn segment.sequence)
    Act.modifySelf fun f => { f with expected := segment.sequence + 1, window := segment.window }
  else
    say (.unexpectedSyn f.phase)
    reset

/-- Confirms what was sent, which may end the flow, and goes on sending. -/
def handleAck (segment : Segment) : Act TcpFlow σ Unit := do
  Act.modifySelf fun f => { f with
    confirmed := segment.acknowledgement
    window := segment.window }
  let f ← Act.self
  let confirmsAll := segment.acknowledgement == f.sequence
  match f.phase, confirmsAll with
  | .closing, true | .lastAck, true =>
    say .closedGracefully
    close
  | .synReceived, _ =>
    setPhase .established
    processReceive
  | .finWait1, true =>
    setPhase .finWait2
    processReceive
  | _, _ => processReceive

/-- Takes payload as a whole or not at all, and says which. -/
def handlePayload (payload : Bytes) : Act TcpFlow σ Bool := do
  let f ← Act.self
  if !f.phase.takesPayload then
    say (.payloadIgnored f.phase)
    return false
  else if f.ring.remaining < payload.length then
    say (.streamFull payload.length)
    return false
  else
    let (_, ring) ← f.ring.push payload
    let length ← narrow32 payload.length
    Act.modifySelf fun f => { f with ring, expected := f.expected + length }
    sendControl .ack
    processSend
    return true

/-- Notes that the device is finished, which takes one sequence number. -/
def handleFin : Act TcpFlow σ Unit := do
  Act.modifySelf fun f => { f with expected := f.expected + 1, deviceClosed := true }
  let f ← Act.self
  match f.phase with
  | .synReceived | .established =>
    if f.remoteClosed && !f.pending then
      sendFin .lastAck
    else
      sendControl .ack
      setPhase .closeWait
    maybeShutWrite
  | .finWait1 =>
    sendControl .ack
    setPhase .closing
    maybeShutWrite
  | .finWait2 =>
    sendControl .ack
    say .closedGracefully
    close
  | _ =>
    sendControl .ack
    maybeShutWrite

/-- Handles payload and end of a segment. An end behind payload that was not taken has to wait until
the device sends both again. -/
def handleContent (segment : Segment) : Act TcpFlow σ Unit := do
  let taken ← if segment.payload = [] then pure true else handlePayload segment.payload
  if taken && !(← Act.self).isClosed && segment.flags.has .fin then
    handleFin
  else
    return ()

/-- Handles a segment that asks for nothing new. -/
def handleSegment (segment : Segment) : Act TcpFlow σ Unit := do
  let f ← Act.self
  if segment.flags.has .rst then
    say .resetByDevice
    close
  else if f.phase = .synSent then
    say (.notConnectedYet segment.flags)
  else if segment.sequence ≠ f.expected then
    say (.outOfOrder segment.sequence f.expected)
  else
    if segment.flags.has .ack then
      handleAck segment
    if (← Act.self).isClosed then
      return ()
    else
      handleContent segment

def checkConnected : Act TcpFlow σ Unit := do
  let f ← Act.self
  match ← Act.call (Host.takeError f.socket) with
  | .present kind | .unknown kind =>
    say (.connectFailed (.host kind))
    reset
  | .none =>
    match ← Act.call (Host.peerAddress f.socket) with
    | none =>
      say .connected
      setPhase .synReceived
      sendControl (.syn ∪ .ack)
      Act.modifySelf fun f => { f with sequence := f.sequence + 1 }
    | some .notConnected | some .wouldBlock => say .stillConnecting
    | some kind =>
      say (.connectFailed (.host kind))
      reset

/-- Tells the poller what the flow waits for. A flow that the poller refuses ends. -/
def updateInterest : Act TcpFlow σ Unit := do
  let f ← Act.self
  if f.isClosed then
    return ()
  else
    match ← f.registration.update f.socket f.wanted with
    | .ok registration => Act.modifySelf fun f => { f with registration }
    | .error kind =>
      say (.interestRefused (.host kind))
      close

def receive (packet : Packet) : Act TcpFlow σ Unit := do
  match ← Segment.ofPacket packet with
  | none => return ()
  | some segment =>
    say (.received segment.flags segment.sequence segment.acknowledgement segment.window
      segment.payload.length)
    match (← Act.self).phase with
    | .closed => return ()
    | .initial =>
      handleFirst segment
      updateInterest
    | _ =>
      if segment.flags.has .syn then
        handleSyn segment
      else
        handleSegment segment
      updateInterest

def onReady (readiness : Readiness) : Act TcpFlow σ Unit := do
  match (← Act.self).phase with
  | .closed => return ()
  | .initial => updateInterest
  | .synSent =>
    if readiness.writable || readiness.error then
      checkConnected
    updateInterest
  | _ =>
    if readiness.writable then
      processSend
    if readiness.readable then
      processReceive
    updateInterest

def pull : Act TcpFlow σ Unit := do
  let f ← Act.self
  if !f.pending || f.isClosed then
    return ()
  else
    let packet ← f.reply.latestData
    if ← Act.offer packet.bytes then
      say .pendingAccepted
      Act.modifySelf fun f => { f with pending := false }
      maybeSendFin
      processReceive
    else
      Act.await f.key
    updateInterest

end TunnelRelay.TcpFlow
