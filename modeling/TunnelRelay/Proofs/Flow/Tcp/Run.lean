import TunnelRelay.Proofs.Flow.Starting
import TunnelRelay.Proofs.Flow.Tcp.Handling
import TunnelRelay.Proofs.Reply
import TunnelRelay.Proofs.Ring.Stream

/-!
# Runs of a TCP flow

A run starts a flow and lets it react to packets, to readiness, to room on the way out, and to being
disconnected, in any order. Between two reactions the world around the flow may change as it likes.
The journal of a run lists its moves, and what every move preserves holds at every moment of it.
-/

namespace TunnelRelay

open Act

namespace TcpFlow

inductive Operation where
  | receive (packet : Packet)
  | ready (readiness : Readiness)
  | pull
  | disconnect

def Operation.perform {σ : Type} [Outlet σ] : Operation → Act TcpFlow σ Unit
  | receive packet => TcpFlow.receive packet
  | ready readiness => onReady readiness
  | pull => TcpFlow.pull
  | disconnect => close

def Operation.stimulus : Operation → Stimulus
  | receive packet =>
    match Segment.ofPacket packet with
    | .ok found => .ofSegment? found
    | .error _ => .other
  | disconnect => .disconnect
  | _ => .other

/-- The scenes that a flow can get into, each with the moves that led there. -/
inductive Run {σ : Type} [Outlet σ] : List Step → Scene TcpFlow σ → Prop where
  | start {α : Type} {session : Nat} {key : FlowKey} {bytes : Bytes} {request : Packet}
      {config : Config} {s t : Scene α σ} {f : TcpFlow}
      (parsed : Packet.ofBytes bytes = .ok request) (tcp : request.protocol = some .tcp)
      (started : TcpFlow.start session key request config s = .ok (.ok f, t)) :
      Run [] ⟨f, t.registry, t.out, t.host⟩
  | world {journal : List Step} {s : Scene TcpFlow σ} (run : Run journal s) (registry : Registry)
      (out : σ) (host : Host) : Run journal { s with registry, out, host }
  | act {journal steps : List Step} {s t : Scene TcpFlow σ} (run : Run journal s)
      {operation : Operation} (performed : operation.perform s = .ok ((), t))
      (path : Path operation.stimulus s steps t) : Run (journal ++ steps) t

/-- The runs of the flows that start with this configuration. -/
inductive RunWith {σ : Type} [Outlet σ] (config : Config) : List Step → Scene TcpFlow σ → Prop where
  | start {α : Type} {session : Nat} {key : FlowKey} {bytes : Bytes} {request : Packet}
      {s t : Scene α σ} {f : TcpFlow} (parsed : Packet.ofBytes bytes = .ok request)
      (tcp : request.protocol = some .tcp)
      (started : TcpFlow.start session key request config s = .ok (.ok f, t)) :
      RunWith config [] ⟨f, t.registry, t.out, t.host⟩
  | world {journal : List Step} {s : Scene TcpFlow σ} (run : RunWith config journal s)
      (registry : Registry) (out : σ) (host : Host) :
      RunWith config journal { s with registry, out, host }
  | act {journal steps : List Step} {s t : Scene TcpFlow σ} (run : RunWith config journal s)
      {operation : Operation} (performed : operation.perform s = .ok ((), t))
      (path : Path operation.stimulus s steps t) : RunWith config (journal ++ steps) t

theorem run_iff_exists_runWith {σ : Type} [Outlet σ] {journal : List Step}
    {s : Scene TcpFlow σ} : Run journal s ↔ ∃ config, RunWith config journal s := by
  constructor
  · intro run
    induction run with
    | start parsed tcp started => exact ⟨_, .start parsed tcp started⟩
    | world _ registry out host ih =>
      obtain ⟨config, run⟩ := ih
      exact ⟨config, run.world registry out host⟩
    | act _ performed path ih =>
      obtain ⟨config, run⟩ := ih
      exact ⟨config, run.act performed path⟩
  · rintro ⟨config, run⟩
    induction run with
    | start parsed tcp started => exact .start parsed tcp started
    | world _ registry out host ih => exact ih.world registry out host
    | act _ performed path ih => exact ih.act performed path

theorem RunWith.run {σ : Type} [Outlet σ] {config : Config} {journal : List Step}
    {s : Scene TcpFlow σ} (run : RunWith config journal s) : Run journal s :=
  run_iff_exists_runWith.2 ⟨config, run⟩

structure Fresh (f : TcpFlow) : Prop where
  phase_eq : f.phase = .initial
  interest_eq : f.registration.interest = some .writable
  consistent : Consistent f
  pending_eq : f.pending = false
  advertised_eq : f.advertised = 0
  sound : f.ring.Sound
  empty : f.ring.toList = []
  plain : Plain f.reply.ipv4 f.reply.transport
  protocol_eq : f.reply.transport.protocol = .tcp

theorem fresh_of_start {α σ : Type} {session : Nat} {key : FlowKey} {bytes : Bytes}
    {request : Packet} {config : Config} {s t : Scene α σ} {f : TcpFlow}
    (parsed : Packet.ofBytes bytes = .ok request) (tcp : request.protocol = some .tcp)
    (started : start session key request config s = .ok (.ok f, t)) : Fresh f := by
  obtain ⟨socket, token, reply, ring, hr, hc, rfl⟩ := eq_of_start started
  obtain ⟨plain, protocol⟩ := Reply.plain_of_ofRequest parsed hr
  refine ⟨rfl, rfl, consistent_of_new rfl rfl rfl rfl rfl, rfl, rfl,
    StreamRing.sound_of_ofCapacity hc, ?_, plain, ?_⟩
  · exact StreamRing.toList_of_ofCapacity hc
  · exact Option.some.inj (protocol.symm.trans tcp)

variable {σ : Type} [Outlet σ] {s t : Scene TcpFlow σ} {journal pre : List Step} {step : Step}

/-- What holds of a fresh flow and is preserved by every move holds after every run. -/
theorem Run.invariant {I : List Step → TcpFlow → Prop} (fresh : ∀ {f : TcpFlow}, Fresh f → I [] f)
    (preserved : ∀ {stimulus : Stimulus} {journal : List Step} {f g : TcpFlow}
      {r r' : Registry} {out out' : σ} {mark : Mark}, I journal f →
      Move stimulus ⟨f, r, out⟩ mark ⟨g, r', out'⟩ → I (journal ++ [⟨f, mark, g⟩]) g)
    (run : Run journal s) : I journal s.self := by
  induction run with
  | start parsed tcp started => exact fresh (fresh_of_start parsed tcp started)
  | world _ _ _ _ ih => exact ih
  | act _ _ path ih => exact path.invariant preserved _ ih

/-- What holds of a fresh flow and is preserved by every move holds before and after each move of a
run. -/
theorem Run.invariant_step {I : List Step → TcpFlow → Prop}
    (fresh : ∀ {f : TcpFlow}, Fresh f → I [] f)
    (preserved : ∀ {stimulus : Stimulus} {journal : List Step} {f g : TcpFlow}
      {r r' : Registry} {out out' : σ} {mark : Mark}, I journal f →
      Move stimulus ⟨f, r, out⟩ mark ⟨g, r', out'⟩ → I (journal ++ [⟨f, mark, g⟩]) g)
    (run : Run journal s) (h : pre ++ [step] <+: journal) :
    I pre step.before ∧ I (pre ++ [step]) step.after ∧
      ∃ (stimulus : Stimulus) (r r' : Registry) (out out' : σ),
        Move stimulus ⟨step.before, r, out⟩ step.mark ⟨step.after, r', out'⟩ := by
  have all := run.invariant (I := fun journal f => I journal f ∧
    ∀ pre step, pre ++ [step] <+: journal → I pre step.before ∧ I (pre ++ [step]) step.after ∧
      ∃ (stimulus : Stimulus) (r r' : Registry) (out out' : σ),
        Move stimulus ⟨step.before, r, out⟩ step.mark ⟨step.after, r', out'⟩)
    (fun hf => ⟨fresh hf, fun pre step h => by simp at h⟩) ?_
  · exact all.2 pre step h
  · rintro stimulus journal f g r r' out out' mark ⟨hf, earlier⟩ move
    refine ⟨preserved hf move, fun pre step h => ?_⟩
    rcases List.prefix_concat_iff.1 h with same | earlier'
    · obtain ⟨rfl, ⟨⟩⟩ := List.append_inj' same rfl
      exact ⟨hf, preserved hf move, stimulus, r, r', out, out', move⟩
    · exact earlier pre step earlier'

theorem Run.consistent (run : Run journal s) : s.self.phase ≠ .closed → Consistent s.self :=
  run.invariant (I := fun _ f => f.phase ≠ .closed → Consistent f) (fun hf _ => hf.consistent)
    fun hf move => move.consistent hf

/-- An operation that ends without a fault goes on with the run. -/
theorem Run.course (run : Run journal s) {operation : Operation}
    (performed : operation.perform s = .ok ((), t)) :
    ∃ steps, Course operation.stimulus s steps t := by
  have consistent := run.consistent
  refine (?_ : Ensures operation.perform s fun _ t =>
    ∃ steps, Course operation.stimulus s steps t) () t performed
  cases operation with
  | receive packet =>
    refine ensures_receive consistent fun found hi steps t reception _ => ⟨steps, ?_⟩
    rw [Operation.stimulus, hi]
    exact reception.course
  | ready readiness => exact ensures_onReady fun steps _ course => ⟨steps, course⟩
  | pull =>
    refine ensures_pull consistent (fun _ => ⟨[], .quiet (.refl _)⟩) ?_
    exact fun step _ _ _ steps _ _ course => ⟨step :: steps, course⟩
  | disconnect => exact ensures_disconnect fun steps _ course => ⟨steps, course⟩

/-- Every operation that ends without a fault extends the run by moves that account for all of its
calls on the host. -/
def Continues (journal : List Step) (s : Scene TcpFlow σ) : Prop :=
  ∀ (operation : Operation) (t : Scene TcpFlow σ), operation.perform s = .ok ((), t) →
    ∃ steps, Path operation.stimulus s steps t ∧ Run (journal ++ steps) t ∧
      t.host.calls = (calls steps).reverse ++ s.host.calls

theorem Run.continues (run : Run journal s) : Continues journal s := by
  intro operation t performed
  obtain ⟨steps, course⟩ := run.course performed
  exact ⟨steps, course.path, run.act performed course.path, course.path.after.calls_eq⟩

/-- The same for a packet that was received, by what is in it. -/
theorem Run.act_receive {packet : Packet} {segment : Segment} {steps : List Step} (run : Run journal s)
    (found : Segment.ofPacket packet = .ok (some segment))
    (received : receive packet s = .ok ((), t)) (path : Path (.segment segment) s steps t) :
    Run (journal ++ steps) t := by
  have reacts : (Operation.receive packet).stimulus = .segment segment := by
    rw [Operation.stimulus, found]
    rfl
  have performed : (Operation.receive packet).perform s = .ok ((), t) := received
  exact run.act performed (reacts ▸ path)

/-- What holds of a fresh flow and is kept by every operation holds after every operation. The moves of
the run may be others than those of the course, but they account for the same calls. -/
theorem Run.at_rest_of_path {I : List Step → TcpFlow → Prop}
    (fresh : ∀ {f : TcpFlow}, Fresh f → I [] f)
    (kept : ∀ {stimulus : Stimulus} {journal steps steps' : List Step} {s t : Scene TcpFlow σ},
      Run journal s → Path stimulus s steps t → Course stimulus s steps' t →
      calls steps = calls steps' → I journal s.self → I (journal ++ steps) t.self)
    (run : Run journal s) : I journal s.self := by
  induction run with
  | start parsed tcp started => exact fresh (fresh_of_start parsed tcp started)
  | world _ _ _ _ ih => exact ih
  | act run performed path ih =>
    obtain ⟨steps', course⟩ := run.course performed
    have same := path.after.calls_eq.symm.trans course.path.after.calls_eq
    exact kept run path course (List.reverse_inj.1 (List.append_cancel_right same)) ih

/-- The same for what speaks of the calls so far, and not of the moves that they belong to. -/
theorem Run.at_rest {I : List Event → TcpFlow → Prop} (fresh : ∀ {f : TcpFlow}, Fresh f → I [] f)
    (kept : ∀ {stimulus : Stimulus} {journal steps : List Step} {s t : Scene TcpFlow σ},
      Run journal s → Course stimulus s steps t → I (calls journal) s.self →
      I (calls (journal ++ steps)) t.self)
    (run : Run journal s) : I (calls journal) s.self := by
  refine run.at_rest_of_path (I := fun journal f => I (calls journal) f) fresh ?_
  intro stimulus journal steps steps' s t run _ course same before
  have after := kept run course before
  rw [calls_append] at after ⊢
  exact same ▸ after

theorem Run.settled (run : Run journal s) : Settled journal s.self := by
  refine run.at_rest (I := fun events f => f.ring.isEmpty = true ∨
    ∃ result, (events.filterMap Event.writeResult?).getLast? = some result ∧ Refused result)
    (fun fresh => ?_) fun _ course settled => course.settled settled
  exact .inl ((StreamRing.isEmpty_iff fresh.sound).2 fresh.empty)

/-- Lets the flow perform one operation after the other, each with its own way out. -/
def performAll : List (σ × Operation) → Act TcpFlow σ Unit
  | [] => return ()
  | (out, operation) :: rest => do
    modify fun s => { s with out }
    operation.perform
    performAll rest

theorem RunWith.ensures_performAll {config : Config} {operations : List (σ × Operation)}
    (run : RunWith config journal s) :
    Ensures (performAll operations) s fun _ t => ∃ steps, RunWith config (journal ++ steps) t ∧
      t.host.calls = (calls steps).reverse ++ s.host.calls := by
  induction operations generalizing journal s with
  | nil => exact (ensures_pure _).2 ⟨[], by simpa using run, rfl⟩
  | cons first rest ih =>
    obtain ⟨out, operation⟩ := first
    rw [performAll, ensures_bind, ensures_modify, ensures_bind]
    intro _ t performed
    have run' := run.world s.registry out s.host
    obtain ⟨steps, path, -, called⟩ := run'.run.continues _ _ performed
    refine (ih (run'.act performed path)).mono ?_
    rintro _ u ⟨more, run'', called'⟩
    refine ⟨steps ++ more, by simpa using run'', ?_⟩
    rw [called', called]
    simp [calls]

/-- Starts a flow by a packet and lets it perform operations. Yields the calls since the start, first
ones first, and the scene at the end. -/
def enact (bytes : Bytes) (config : Config) (host : Host) (operations : List (Credit × Operation)) :
    Checked (Option (List Event × Scene TcpFlow Credit)) := do
  let request ← Packet.ofBytes bytes
  match ← FlowKey.ofPacket request with
  | none => return none
  | some key =>
    if request.protocol = some .tcp then
      match ← start 1 key request config (⟨(), {}, ⟨none⟩, host⟩ : Scene Unit Credit) with
      | (.error _, _) => return none
      | (.ok f, s) =>
        let (_, t) ← performAll operations ⟨f, s.registry, s.out, s.host⟩
        return some ((t.host.calls.take (t.host.calls.length - s.host.calls.length)).reverse, t)
    else
      return none

/-- Whether the calls and the scene at the end are as `p` says. -/
def enacts (bytes : Bytes) (config : Config) (host : Host) (operations : List (Credit × Operation))
    (p : List Event → Scene TcpFlow Credit → Bool) : Bool :=
  match enact bytes config host operations with
  | .ok (some (events, t)) => p events t
  | _ => false

theorem exists_runWith_of_enacts {bytes : Bytes} {config : Config} {host : Host}
    {operations : List (Credit × Operation)} {p : List Event → Scene TcpFlow Credit → Bool}
    (h : enacts bytes config host operations p = true) :
    ∃ journal t, RunWith config journal t ∧ p (calls journal) t = true := by
  unfold enacts at h
  split at h
  · next events t enacted =>
    simp only [enact, checked_bind_eq_ok] at enacted
    obtain ⟨request, parsed, key, -, enacted⟩ := enacted
    split at enacted
    · cases enacted
    split at enacted
    · next tcp =>
      simp only [checked_bind_eq_ok] at enacted
      obtain ⟨⟨result, s⟩, started, enacted⟩ := enacted
      split at enacted
      · cases enacted
      · next f s' same =>
        cases same
        simp only [checked_bind_eq_ok] at enacted
        obtain ⟨⟨_, t'⟩, performed, enacted⟩ := enacted
        cases enacted
        obtain ⟨steps, run, called⟩ :=
          (RunWith.start parsed tcp started).ensures_performAll _ _ performed
        rw [called] at h
        refine ⟨steps, _, run, ?_⟩
        simpa using h
    · cases enacted
  · cases h

theorem exists_run_of_enacts {bytes : Bytes} {config : Config} {host : Host}
    {operations : List (Credit × Operation)} {p : List Event → Scene TcpFlow Credit → Bool}
    (h : enacts bytes config host operations p = true) :
    ∃ journal t, Run journal t ∧ p (calls journal) t = true := by
  obtain ⟨journal, t, run, result⟩ := exists_runWith_of_enacts h
  exact ⟨journal, t, run.run, result⟩

/-- A packet of a device, as short as it can be. -/
def devicePacket (flags : TcpFlags) (sequence acknowledgement : UInt32) (payload : Bytes) : Bytes :=
  [0x45, 0, 0, (40 + payload.length).toUInt8, 0, 0, 0x40, 0, 64, 6, 0, 0, 10, 0, 0, 2, 93, 184, 216, 34,
    0xa0, 0x28, 0, 80] ++ bytesOf32 sequence ++ bytesOf32 acknowledgement ++
    [0x50, flags.bits.toUInt8, 0x10, 0, 0, 0, 0, 0] ++ payload

def Operation.ofDevice (flags : TcpFlags) (sequence acknowledgement : UInt32) (payload : Bytes) :
    Operation :=
  match Packet.ofBytes (devicePacket flags sequence acknowledgement payload) with
  | .ok packet => .receive packet
  | .error _ => .pull

end TcpFlow

end TunnelRelay
