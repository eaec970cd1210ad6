import TunnelRelay.FlowTable
import TunnelRelay.Framing
import TunnelRelay.Outbox

/-!
# Sessions

A session is one tunnel: a stream from a device that carries raw IPv4 packets both ways. Packets that
arrive are framed and handed to their flows; packets for the device are gathered in the outbox and
written as the tunnel takes them. When the outbox has room for any packet again, the flows that wait
are asked in turn to go on.
-/

namespace TunnelRelay

/-- One tunnel of a device. -/
structure Session where
  id : Nat
  socket : SocketId
  registration : Registration
  framing : Framing := {}
  outbox : Outbox
  table : FlowTable
  closed : Bool := false

namespace Session

variable {α : Type}

/-- Starts a session on the socket of a new tunnel. -/
def start (id : Nat) (socket : SocketId) (config : Config) :
    Act α Unit (Except Failure Session) := do
  match ← Registration.enter socket (some .readable) (.session id) with
  | .error kind =>
    Act.tell (Host.close socket)
    return .error (.host kind)
  | .ok registration =>
    Act.note (.session id .connected)
    return .ok {
      id, socket, registration
      outbox := { ring := ← StreamRing.ofCapacity config.tunnelCapacity }
      table := { session := id, config } }

def say (notice : SessionNotice) : Act Session Unit Unit := do
  Act.note (.session (← Act.self).id notice)

/-- Lets the session's flows act, with the outbox as their way out. -/
def withTable {β : Type} (act : Act FlowTable Outbox β) : Act Session Unit β := fun s => do
  let (b, t) ← act ⟨s.self.table, s.registry, s.self.outbox, s.host⟩
  return (b, ⟨{ s.self with table := t.self, outbox := t.out }, t.registry, (), t.host⟩)

def withFraming {β : Type} (act : Act Framing Unit β) : Act Session Unit β :=
  Act.on framing (fun framing s => { s with framing }) act

/-- Ends the session and all of its flows. A closed session stays as it is. -/
def close : Act Session Unit Unit := do
  let s ← Act.self
  if s.closed then
    return ()
  else
    Act.modifySelf fun s => { s with closed := true }
    let registration ← s.registration.cancel s.socket
    Act.modifySelf fun s => { s with registration }
    withTable FlowTable.clear
    Act.modifySelf fun s => { s with outbox := { s.outbox with waiting := [] } }
    say .closed

/-- Routes the next whole packet, if there is one. -/
def routeRound : Unit → Act Session Unit (Round Unit (Except Failure Unit)) := fun _ => do
  match ← withFraming Framing.next with
  | .error failure => return .done (.error failure)
  | .ok none => return .done (.ok ())
  | .ok (some packet) =>
    withTable (FlowTable.send packet)
    withFraming Framing.consume
    return .again ()

/-- Routes all whole packets that have arrived. Every round but the last takes bytes out. -/
def routePackets : Act Session Unit (Except Failure Unit) := do
  Act.iterate ((← Act.self).framing.length + 1) routeRound ()

def readRound : Unit → Act Session Unit (Round Unit Unit) := fun _ => do
  let s ← Act.self
  match ← Act.call (Host.read s.socket (← s.framing.room)) with
  | .ok [] =>
    say .closedByDevice
    close
    return .done ()
  | .ok bytes =>
    Act.modifySelf fun s => { s with framing := s.framing.append bytes }
    match ← routePackets with
    | .ok () => return .again ()
    | .error failure =>
      say (.framingLost failure)
      close
      return .done ()
  | .error .wouldBlock => return .done ()
  | .error .interrupted => return .again ()
  | .error kind =>
    say (.readError (.host kind))
    close
    return .done ()

/-- Reads the tunnel until nothing is left. Every round but the last uses up some of it. -/
def processReceive : Act Session Unit Unit := do
  let s ← get
  Act.iterate ((s.host.socket s.self.socket).unread + 1) readRound ()

def flushRound : Unit → Act Session Unit (Round Unit (Except Failure Unit)) := fun _ => do
  let s ← Act.self
  if s.outbox.ring.isEmpty then
    return .done (.ok ())
  else
    match ← Act.call (Host.write s.socket (← s.outbox.ring.front)) with
    | .ok [] => return .done (.error (.host .writeZero))
    | .ok taken =>
      Act.modifySelf fun s =>
        { s with outbox := { s.outbox with ring := s.outbox.ring.drop taken.length } }
      return .again ()
    | .error .wouldBlock => return .done (.ok ())
    | .error .interrupted => return .again ()
    | .error kind => return .done (.error (.host kind))

/-- Writes as much as the tunnel takes. Every round but the last removes bytes or uses up a
transfer. -/
def flush : Act Session Unit (Except Failure Unit) := do
  let s ← get
  let transfers := (s.host.socket s.self.socket).transfers.length
  Act.iterate (s.self.outbox.ring.length + transfers + 1) flushRound ()

/-- Asks the flow that has waited longest to go on, if there is room for any packet. -/
def pullRound : Unit → Act Session Unit (Round Unit (Except Failure Unit)) := fun _ => do
  let s ← Act.self
  if s.outbox.ring.remaining < maxPacketLength then
    return .done (.ok ())
  else
    match s.outbox.waiting with
    | [] => return .done (.ok ())
    | key :: rest =>
      Act.modifySelf fun s => { s with outbox := { s.outbox with waiting := rest } }
      say (.pulling key)
      withTable (FlowTable.pull key)
      match ← flush with
      | .ok () => return .again ()
      | .error failure => return .done (.error failure)

/-- Writes as much as the tunnel takes, and lets waiting flows go on while there is room. A flow waits
again only after it has read something, so that the rounds are bounded by the flows that wait and by
what there is to read. -/
def flushAndPull : Act Session Unit (Except Failure Unit) := do
  match ← flush with
  | .error failure => return .error failure
  | .ok () =>
    let s ← get
    Act.iterate (s.self.outbox.waiting.length + s.host.unread + 1) pullRound ()

def wanted (s : Session) : Interest := if s.outbox.ring.isEmpty then .readable else .both

/-- Tells the poller what the session waits for. A session that the poller refuses ends. -/
def updateInterest : Act Session Unit Unit := do
  let s ← Act.self
  match ← s.registration.update s.socket (some s.wanted) with
  | .ok registration => Act.modifySelf fun s => { s with registration }
  | .error kind =>
    say (.interestRefused (.host kind))
    close

/-- What every event ends with. -/
def afterEvent : Act Session Unit Unit := do
  if (← Act.self).closed then
    return ()
  else
    match ← flushAndPull with
    | .ok () => updateInterest
    | .error failure =>
      say (.writeError failure)
      close

def onReady (readiness : Readiness) : Act Session Unit Unit := do
  if (← Act.self).closed then
    return ()
  else
    if readiness.readable then
      processReceive
    afterEvent

def onFlowReady (key : FlowKey) (readiness : Readiness) : Act Session Unit Unit := do
  if (← Act.self).closed then
    return ()
  else
    withTable (FlowTable.onReady key readiness)
    afterEvent

def sweep (now : Nat) : Act Session Unit Unit := do
  if (← Act.self).closed then
    return ()
  else
    withTable (FlowTable.sweep now)

end Session

end TunnelRelay
