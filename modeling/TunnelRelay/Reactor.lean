import TunnelRelay.Session

/-!
# The reactor

One loop drives the whole relay: it waits for the readiness of sockets, no longer than until the next
sweep is due, hands each signal to the listener or to the session it belongs to, and sweeps out idle
flows when it is time.
-/

namespace TunnelRelay

/-- The number of tunnels that may wait to be accepted. -/
def listenBacklog : Nat := 128

inductive ReactorError where
  | config (error : ConfigError)
  | host (kind : ErrorKind)
  | bind (endpoint : Endpoint) (kind : ErrorKind)
  | poll (kind : ErrorKind)
  deriving DecidableEq

def ReactorError.message : ReactorError → String
  | config error => error.message
  | host kind => kind.message
  | bind endpoint kind => "cannot bind to " ++ endpoint.text ++ ": " ++ kind.message
  | poll kind => "polling failed: " ++ kind.message

structure Reactor where
  config : Config
  listener : SocketId
  registration : Registration
  /-- The open sessions by number. -/
  sessions : List (Nat × Session) := []
  /-- Numbers have 32 bits, and none is given twice. -/
  nextSession : UInt32 := 1
  /-- When idle flows are looked for next. -/
  nextSweep : Nat

namespace Reactor

/-- Makes the listener ready for tunnels, the poller included. -/
def prepareListener (socket : SocketId) (endpoint : Endpoint) :
    Act Unit Unit (Except ReactorError Unit) := do
  match ← Act.call (Host.reuseAddress socket) with
  | some kind => return .error (.host kind)
  | none =>
  match ← Act.call (Host.bind socket endpoint) with
  | some kind => return .error (.bind endpoint kind)
  | none =>
  match ← Act.call (Host.listen socket listenBacklog) with
  | some kind => return .error (.host kind)
  | none =>
  match ← Act.call (Host.setNonblocking socket) with
  | some kind => return .error (.host kind)
  | none =>
  match ← Act.call Host.openPoller with
  | some kind => return .error (.host kind)
  | none => return .ok ()

/-- Sets up a relay. Where that fails the listener is closed again. -/
def start (config : Config) : Act Unit Unit (Except ReactorError Reactor) := do
  match config.check with
  | .error error => return .error (.config error)
  | .ok () =>
  match ← Act.call Host.openListener with
  | .error kind => return .error (.host kind)
  | .ok listener =>
  match ← prepareListener listener config.listenAt with
  | .error error =>
    Act.tell (Host.close listener)
    return .error error
  | .ok () =>
  match ← Registration.enter listener (some .readable) .listener with
  | .error kind =>
    Act.tell (Host.close listener)
    return .error (.host kind)
  | .ok registration =>
    return .ok { config, listener, registration, nextSweep := (← Act.now) + config.sweepInterval }

/-- The sessions with the one of number `id` replaced. -/
def putSession (id : Nat) (session : Session) (r : Reactor) : Reactor :=
  { r with sessions := r.sessions.map fun entry => if entry.1 = id then (id, session) else entry }

def removeIfClosed (id : Nat) : Act Reactor Unit Unit := do
  match (← Act.self).sessions.lookup id with
  | none => return ()
  | some session =>
    if session.closed then
      Act.modifySelf fun r => { r with sessions := r.sessions.filter fun entry => entry.1 != id }
      Act.tell (Host.close session.socket)
      Act.note (.session id (.removed (← Act.self).sessions.length))
    else
      return ()

/-- Lets a session act, if it is still there. -/
def onSession (id : Nat) (act : Act Session Unit Unit) : Act Reactor Unit Unit := do
  match (← Act.self).sessions.lookup id with
  | none => return ()
  | some session =>
    let (_, session) ← Act.runOn session act
    Act.modifySelf (putSession id session)

/-- Takes in one tunnel, if one waits. -/
def acceptRound : Unit → Act Reactor Unit (Round Unit Unit) := fun _ => do
  let r ← Act.self
  match ← Act.call (Host.accept r.listener) with
  | .ok (socket, peer) =>
    if let some kind ← Act.call (Host.setNoDelay socket) then
      Act.note (.noDelayRefused peer (.host kind))
    let id := r.nextSession.toNat
    Act.setSelf { r with nextSession := ← succ32 r.nextSession }
    Act.note (.session id (.accepted peer))
    match ← Session.start id socket r.config with
    | .ok session => Act.modifySelf fun r => { r with sessions := r.sessions ++ [(id, session)] }
    | .error failure => Act.note (.session id (.rejected failure))
    return .again ()
  | .error .wouldBlock => return .done ()
  | .error .interrupted => return .again ()
  | .error kind =>
    Act.note (.acceptFailed (.host kind))
    return .done ()

/-- Takes in all tunnels that wait. Every round but the last uses up a visitor. -/
def acceptAll : Act Reactor Unit Unit := do
  let s ← get
  Act.iterate ((s.host.socket s.self.listener).visitors.length + 1) acceptRound ()

/-- Hands a signal to whom it concerns. Tokens of closed sockets concern nobody. -/
def dispatch (token : Nat) (readiness : Readiness) : Act Reactor Unit Unit := do
  match (← get).registry.get? token with
  | none => Act.note (.staleToken token)
  | some .listener => acceptAll
  | some (.session id) =>
    onSession id (Session.onReady readiness)
    removeIfClosed id
  | some (.flow id key) =>
    onSession id (Session.onFlowReady key readiness)
    removeIfClosed id

def dispatchAll : List (Nat × Signal) → Act Reactor Unit Unit
  | [] => return ()
  | (token, signal) :: rest => do
    dispatch token (.ofSignal signal)
    dispatchAll rest

/-- Ends the idle flows of several sessions. -/
def sweepSessions (now : Nat) : List Nat → Act Reactor Unit Unit
  | [] => return ()
  | id :: rest => do
    onSession id (Session.sweep now)
    sweepSessions now rest

/-- Ends idle flows if it is time, and sets the time of the next sweep. -/
def sweepIfDue : Act Reactor Unit Unit := do
  let now ← Act.now
  let r ← Act.self
  if r.nextSweep ≤ now then
    Act.note (.sweeping r.sessions.length)
    sweepSessions now (r.sessions.map Prod.fst)
    Act.modifySelf fun r => { r with nextSweep := now + r.config.sweepInterval }
  else
    return ()

def timeout (r : Reactor) (now : Nat) (maxWait : Option Nat) : Nat :=
  match maxWait with
  | none => r.nextSweep - now
  | some wait => min wait (r.nextSweep - now)

/-- One wait for signals, and all that follows from it. -/
def once (maxWait : Option Nat) : Act Reactor Unit (Except ReactorError Unit) := do
  match ← waitForSignals (some ((← Act.self).timeout (← Act.now) maxWait)) with
  | .error kind =>
    Act.note (.pollFailed (.host kind))
    return .error (.poll kind)
  | .ok signals =>
    dispatchAll signals
    sweepIfDue
    return .ok ()

def runRound : Unit → Act Reactor Unit (Round Unit ReactorError) := fun _ => do
  match ← once none with
  | .ok () => return .again ()
  | .error error => return .done error

/-- Runs until the poller fails. Every round uses up a wakeup, and a relay whose poller never fails
runs forever. -/
def run : Act Reactor Unit ReactorError := do
  let s ← get
  Act.note (.listening s.self.config.listenAt)
  Act.iterate (s.host.wakeups.length + 1) runRound ()

end Reactor

end TunnelRelay
