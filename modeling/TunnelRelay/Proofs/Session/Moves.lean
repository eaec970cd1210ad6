import TunnelRelay.Proofs.FlowTable
import TunnelRelay.Proofs.Session.Routing

/-!
# Moves of a session

Whatever a session does is a sequence of moves: it reads the tunnel, has its flows act, writes to the
tunnel, tells the poller what it waits for, or ends. Each move is labelled by what the host or the
flows contributed.
-/

namespace TunnelRelay

open Act

namespace Session

/-- What a session asks of its flows. -/
inductive Task where
  | send (packet : Packet)
  | ready (key : FlowKey) (readiness : Readiness)
  | pull (key : FlowKey)
  | sweep (now : Nat)

namespace Task

def perform : Task → Act FlowTable Outbox Unit
  | send packet => FlowTable.send packet
  | ready key readiness => FlowTable.onReady key readiness
  | pull key => FlowTable.pull key
  | sweep now => FlowTable.sweep now

/-- The key of the flow that a task is for, if it is for one. -/
def key? : Task → Option FlowKey
  | send packet => FlowTable.keyOf? packet
  | ready key _ | pull key => some key
  | sweep _ => none

/-- What is left of the session when the task has been taken from it. -/
def takenFrom (s : Session) : Task → Session
  | send packet => { s with framing := s.framing.drop packet.length }
  | pull _ => { s with outbox := { s.outbox with waiting := s.outbox.waiting.tail } }
  | ready _ _ | sweep _ => s

/-- A packet is sent when all of it has arrived. Nothing else is asked before all such packets have
been sent, and a flow is pulled in its turn when there is room for any packet. -/
inductive Due (s : Session) : Task → Prop where
  | send {packet : Packet} (seen : Prospect.of s.framing.held = .packet packet.length)
      (parsed : Packet.ofBytes (s.framing.held.take packet.length) = .ok packet) :
      Due s (.send packet)
  | ready (drained : s.framing.Drained) (key : FlowKey) (readiness : Readiness) :
      Due s (.ready key readiness)
  | pull (drained : s.framing.Drained) {key : FlowKey} {rest : List FlowKey}
      (waits : s.outbox.waiting = key :: rest)
      (room : maxPacketLength ≤ s.outbox.ring.remaining) : Due s (.pull key)
  | sweep (drained : s.framing.Drained) (now : Nat) : Due s (.sweep now)

end Task

inductive Cause where
  | endOfStream
  /-- The length that a packet declares is less than a header takes. -/
  | corrupt (declared : Nat)
  | readError (kind : ErrorKind)
  | writeError (failure : Failure)
  | refused (kind : ErrorKind)

/-- What a session did in one move. -/
inductive Deed where
  | read (size : Nat) (result : Except ErrorKind Bytes)
  | served (task : Task) (calls : List Event)
  | wrote (offered : Bytes) (result : Except ErrorKind Bytes)
  /-- The poller was told another interest, which it may have refused. -/
  | told (call : Event)
  | closed (cause : Cause) (calls : List Event)

def Deed.calls (socket : SocketId) : Deed → List Event
  | read size result => [.read socket size result]
  | wrote offered result => [.write socket offered.length result]
  | told call => [call]
  | served _ calls | closed _ calls => calls

/-- The session has come to its end, after these calls, latest first. A failed call is the last one. -/
inductive Fails (s : Session) (calls : List Event) : Cause → Prop where
  | endOfStream (drained : s.framing.Drained) {size : Nat}
      (last : calls.head? = some (.read s.socket size (.ok []))) : Fails s calls .endOfStream
  | corrupt {declared : Nat} (seen : Prospect.of s.framing.held = .corrupt declared) :
      Fails s calls (.corrupt declared)
  | readError (drained : s.framing.Drained) {size : Nat} {kind : ErrorKind}
      (failed : kind ≠ .wouldBlock ∧ kind ≠ .interrupted)
      (last : calls.head? = some (.read s.socket size (.error kind))) :
      Fails s calls (.readError kind)
  | writeZero (drained : s.framing.Drained) {offered : Nat}
      (last : calls.head? = some (.write s.socket offered (.ok []))) :
      Fails s calls (.writeError (.host .writeZero))
  | writeError (drained : s.framing.Drained) {offered : Nat} {kind : ErrorKind}
      (failed : kind ≠ .wouldBlock ∧ kind ≠ .interrupted)
      (last : calls.head? = some (.write s.socket offered (.error kind))) :
      Fails s calls (.writeError (.host kind))
  | refused (drained : s.framing.Drained) {kind : ErrorKind}
      (last : calls.head? = some
        (s.registration.pollerCall s.socket (some s.wanted) (some kind))) :
      Fails s calls (.refused kind)

def received (s : Session) : Except ErrorKind Bytes → Session
  | .ok (b :: bytes) => { s with framing := s.framing.append (b :: bytes) }
  | _ => s

def relieved (s : Session) : Except ErrorKind Bytes → Session
  | .ok (b :: bytes) =>
    { s with outbox := { s.outbox with ring := s.outbox.ring.drop (b :: bytes).length } }
  | _ => s

@[simp]
theorem closed_received (s : Session) (result : Except ErrorKind Bytes) :
    (s.received result).closed = s.closed := by
  unfold received
  split <;> rfl

@[simp]
theorem outbox_received (s : Session) (result : Except ErrorKind Bytes) :
    (s.received result).outbox = s.outbox := by
  unfold received
  split <;> rfl

@[simp]
theorem closed_relieved (s : Session) (result : Except ErrorKind Bytes) :
    (s.relieved result).closed = s.closed := by
  unfold relieved
  split <;> rfl

@[simp]
theorem framing_relieved (s : Session) (result : Except ErrorKind Bytes) :
    (s.relieved result).framing = s.framing := by
  unfold relieved
  split <;> rfl

inductive Move : Scene Session Unit → Deed → Scene Session Unit → Prop where
  | read {s : Scene Session Unit} (isOpen : s.self.closed = false) (drained : s.self.framing.Drained)
      {size : Nat} (room : s.self.framing.room = .ok size) {result : Except ErrorKind Bytes}
      {host : Host} (answer : s.host.read s.self.socket size = (result, host)) :
      Move s (.read size result) { s with self := s.self.received result, host }
  | served {s : Scene Session Unit} (isOpen : s.self.closed = false) {task : Task}
      (due : task.Due s.self) {u : Scene FlowTable Outbox}
      (ran : task.perform ⟨s.self.table, s.registry, (task.takenFrom s.self).outbox, s.host⟩ =
        .ok ((), u))
      {calls : List Event} (adds : s.host.Adds calls u.host) :
      Move s (.served task calls)
        ⟨{ task.takenFrom s.self with table := u.self, outbox := u.out }, u.registry, (), u.host⟩
  | wrote {s : Scene Session Unit} (isOpen : s.self.closed = false)
      (drained : s.self.framing.Drained)
      (nonempty : s.self.outbox.ring.isEmpty = false) {front : Bytes}
      (offered : s.self.outbox.ring.front = .ok front) {result : Except ErrorKind Bytes}
      {host : Host} (answer : s.host.write s.self.socket front = (result, host)) :
      Move s (.wrote front result) { s with self := s.self.relieved result, host }
  | told {s : Scene Session Unit} (isOpen : s.self.closed = false)
      (drained : s.self.framing.Drained)
      (changed : s.self.registration.interest ≠ some s.self.wanted) {outcome : Outcome}
      {host : Host}
      (called : s.host.After
        [s.self.registration.pollerCall s.self.socket (some s.self.wanted) outcome] host) :
      Move s (.told (s.self.registration.pollerCall s.self.socket (some s.self.wanted) outcome))
        { s with
          self := { s.self with
            registration := s.self.registration.told (some s.self.wanted) outcome }
          host }
  | closed {s t : Scene Session Unit} (isOpen : s.self.closed = false) {cause : Cause}
      (fails : s.self.Fails s.host.calls cause) (ran : close s = .ok ((), t)) {calls : List Event}
      (adds : s.host.Adds calls t.host) : Move s (.closed cause calls) t

inductive Path : Scene Session Unit → List Deed → Scene Session Unit → Prop where
  | quiet {s : Scene Session Unit} {host : Host} (h : s.host.After [] host) :
      Path s [] { s with host }
  | move {s t : Scene Session Unit} {deed : Deed} (h : Move s deed t) : Path s [deed] t
  | append {s t u : Scene Session Unit} {first second : List Deed} (h : Path s first t)
      (h' : Path t second u) : Path s (first ++ second) u

end Session

end TunnelRelay
