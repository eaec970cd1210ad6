import TunnelRelay.Config
import TunnelRelay.Outlet
import TunnelRelay.Registration
import TunnelRelay.Reply
import TunnelRelay.Ring.Datagram

/-!
# UDP flows

A UDP flow of the device is carried over a connected datagram socket of the host, one datagram for
one packet in both directions. Nothing ends such a flow but a failure or a long silence.
-/

namespace TunnelRelay

structure UdpFlow where
  key : FlowKey
  socket : SocketId
  registration : Registration
  reply : Reply
  /-- Datagrams from the device that the socket has not taken yet. -/
  ring : DatagramRing
  /-- When the flow was last in use. -/
  idleSince : Nat
  idleTimeout : Nat
  /-- The latest packet waits for room on the way out. -/
  pending : Bool := false
  closed : Bool := false

namespace UdpFlow

variable {α σ : Type}

def wanted (f : UdpFlow) : Option Interest := Interest.of? (!f.pending) (!f.ring.isEmpty)

/-- Whether the flow has been silent for too long. Datagrams that still wait keep it alive. -/
def isExpired (f : UdpFlow) (now : Nat) : Bool :=
  f.idleTimeout ≤ now - f.idleSince && f.ring.isEmpty

/-- Opens the flow's socket. The request shapes the replies and is not handled here. -/
def start (session : Nat) (key : FlowKey) (request : Packet) (config : Config) :
    Act α σ (Except Failure UdpFlow) := do
  match ← Reply.ofRequest request with
  | none => return .error .noFlow
  | some reply =>
    match ← Act.call Host.openDatagram with
    | .error kind => return .error (.host kind)
    | .ok socket =>
      match ← Act.call (Host.connectDatagram socket key.destination) with
      | some kind =>
        Act.tell (Host.close socket)
        return .error (.host kind)
      | none =>
        match ← Registration.enter socket (some .readable) (.flow session key) with
        | .error kind =>
          Act.tell (Host.close socket)
          return .error (.host kind)
        | .ok registration =>
          Act.note (.flow key .opened)
          return .ok {
            key, socket, registration, reply
            ring := ← DatagramRing.ofCapacity config.datagramCapacity
            idleSince := ← Act.now
            idleTimeout := config.udpIdleTimeout }

def say (notice : FlowNotice) : Act UdpFlow σ Unit := do
  Act.note (.flow (← Act.self).key notice)

def touch : Act UdpFlow σ Unit := do
  let now ← Act.now
  Act.modifySelf fun f => { f with idleSince := now }

/-- Ends the flow. A closed flow stays as it is. -/
def disconnect : Act UdpFlow σ Unit := do
  let f ← Act.self
  if f.closed then
    return ()
  else
    say .closed
    Act.modifySelf fun f => { f with closed := true }
    let registration ← f.registration.cancel f.socket
    Act.modifySelf fun f => { f with registration }

def sendRound : Unit → Act UdpFlow σ (Round Unit Unit) := fun _ => do
  let f ← Act.self
  match ← f.ring.front with
  | none => return .done ()
  | some datagram =>
    match ← Act.call (Host.send f.socket datagram) with
    | .ok _ =>
      let ring ← f.ring.pop
      Act.modifySelf fun f => { f with ring }
      touch
      return .again ()
    | .error .wouldBlock => return .done ()
    | .error .interrupted => return .again ()
    | .error kind =>
      say (.sendError (.host kind))
      disconnect
      return .done ()

/-- Sends datagrams to the network. Every round but the last removes one or uses up a transfer. -/
def processSend : Act UdpFlow σ Unit := do
  let s ← get
  let transfers := (s.host.socket s.self.socket).transfers.length
  Act.iterate (s.self.ring.count + transfers + 1) sendRound ()

/-- Tells the poller what the flow waits for. A flow that the poller refuses ends. -/
def updateInterest : Act UdpFlow σ Unit := do
  let f ← Act.self
  if f.closed then
    return ()
  else
    match ← f.registration.update f.socket f.wanted with
    | .ok registration => Act.modifySelf fun f => { f with registration }
    | .error kind =>
      say (.interestRefused (.host kind))
      disconnect

def receive (packet : Packet) : Act UdpFlow σ Unit := do
  if (← Act.self).closed then
    return ()
  else
    match ← packet.payload with
    | none => return ()
    | some payload =>
      touch
      let (stored, ring) ← (← Act.self).ring.push payload
      Act.modifySelf fun f => { f with ring }
      if stored then
        processSend
        updateInterest
      else
        say (.datagramsFull payload.length)

variable [Outlet σ]

/-- Makes a packet of a received datagram and offers it; a refused one waits. -/
def deliver (datagram : Bytes) : Act UdpFlow σ Unit := do
  touch
  let reply ← (← Act.self).reply.commit datagram datagram.length
  let (packet, reply) ← reply.completeData
  Act.modifySelf fun f => { f with reply }
  say (.datagramTowardsDevice datagram.length)
  if ← Act.offer packet.bytes then
    return ()
  else
    say .waitingForRoom
    Act.modifySelf fun f => { f with pending := true }
    Act.await (← Act.self).key

/-- Receives one datagram, unless a packet waits. -/
def receiveRound : Unit → Act UdpFlow σ (Round Unit Unit) := fun _ => do
  let f ← Act.self
  if f.pending || f.closed then
    return .done ()
  else
    let (size, reply) ← f.reply.reserve f.reply.maxPayload
    Act.modifySelf fun f => { f with reply }
    match ← Act.call (Host.receive f.socket size) with
    | .ok datagram =>
      deliver datagram
      return .again ()
    | .error .wouldBlock => return .done ()
    | .error .interrupted => return .again ()
    | .error kind =>
      say (.receiveError (.host kind))
      disconnect
      return .again ()

/-- Moves datagrams from the network to the device. Every round but the last uses up an arrival. -/
def processReceive : Act UdpFlow σ Unit := do
  let s ← get
  let arrivals := (s.host.socket s.self.socket).arrivals.length
  Act.iterate (arrivals + 1) receiveRound ()

def onReady (readiness : Readiness) : Act UdpFlow σ Unit := do
  if (← Act.self).closed then
    return ()
  else
    if readiness.writable then
      processSend
    if readiness.readable then
      processReceive
    updateInterest

def pull : Act UdpFlow σ Unit := do
  let f ← Act.self
  if !f.pending || f.closed then
    return ()
  else
    let packet ← f.reply.latestData
    if ← Act.offer packet.bytes then
      Act.modifySelf fun f => { f with pending := false }
      processReceive
    else
      Act.await f.key
    updateInterest

end UdpFlow

end TunnelRelay
