import TunnelRelay.Proofs.Flow.Starting
import TunnelRelay.Proofs.Flow.Udp.Handling
import TunnelRelay.Proofs.Reply
import TunnelRelay.Proofs.Ring.Records

/-!
# Runs of a UDP flow

As with TCP, a run starts a flow and lets it react to packets, to readiness, to room on the way out,
and to being disconnected, in any order, while the world around it changes as it likes. The journal of
a run lists its moves, and it stores what the packets carried as far as the ring has room for it.
-/

namespace TunnelRelay

open Act

namespace UdpFlow

inductive Operation where
  | receive (packet : Packet)
  | ready (readiness : Readiness)
  | pull
  | disconnect

def Operation.perform {σ : Type} [Outlet σ] : Operation → Act UdpFlow σ Unit
  | receive packet => UdpFlow.receive packet
  | ready readiness => onReady readiness
  | pull => UdpFlow.pull
  | disconnect => UdpFlow.disconnect

def Operation.stimulus : Operation → Stimulus
  | receive packet => .ofPacket packet
  | disconnect => .disconnect
  | _ => .other

/-- The payload that the flow accepts when it is asked to do something. -/
def Operation.accepted (f : UdpFlow) : Operation → List Bytes
  | receive packet =>
    match packet.payload with
    | .ok (some payload) => if !f.closed && f.ring.hasRoomFor payload.length then [payload] else []
    | _ => []
  | _ => []

def Mark.accepted? : Mark → Option Bytes
  | stored payload => some payload
  | _ => none

def accepted (steps : List Step) : List Bytes := steps.filterMap fun step => step.mark.accepted?

section

variable {σ : Type} [Outlet σ]

/-- The moves that an operation leads to. They store what the operation brings, and nothing else. -/
structure Course (operation : Operation) (s : Scene UdpFlow σ) (steps : List Step)
    (t : Scene UdpFlow σ) : Prop where
  path : Path operation.stimulus s steps t
  accepted_eq : accepted steps = operation.accepted s.self

inductive Run : List Step → Scene UdpFlow σ → Prop where
  | start {α : Type} {session : Nat} {key : FlowKey} {bytes : Bytes} {request : Packet}
      {config : Config} {s t : Scene α σ} {f : UdpFlow}
      (parsed : Packet.ofBytes bytes = .ok request)
      (started : UdpFlow.start session key request config s = .ok (.ok f, t)) :
      Run [] ⟨f, t.registry, t.out, t.host⟩
  | world {journal : List Step} {s : Scene UdpFlow σ} (run : Run journal s) (registry : Registry)
      (out : σ) (host : Host) : Run journal { s with registry, out, host }
  | act {journal steps : List Step} {s t : Scene UdpFlow σ} (run : Run journal s)
      {operation : Operation} (performed : operation.perform s = .ok ((), t))
      (course : Course operation s steps t) : Run (journal ++ steps) t

end

structure Fresh (f : UdpFlow) : Prop where
  isOpen : f.closed = false
  interest_eq : f.registration.interest = some .readable
  pending_eq : f.pending = false
  empty : f.ring.Holds []
  plain : Plain f.reply.ipv4 f.reply.transport

theorem fresh_of_start {α σ : Type} {session : Nat} {key : FlowKey} {bytes : Bytes}
    {request : Packet} {config : Config} {s t : Scene α σ} {f : UdpFlow}
    (parsed : Packet.ofBytes bytes = .ok request)
    (started : start session key request config s = .ok (.ok f, t)) : Fresh f := by
  obtain ⟨socket, token, reply, ring, prepared, made, rfl⟩ := eq_of_start started
  exact ⟨rfl, rfl, rfl, DatagramRing.holds_of_ofCapacity made,
    (Reply.plain_of_ofRequest parsed prepared).1⟩

variable {σ : Type} [Outlet σ] {s t : Scene UdpFlow σ} {journal pre steps : List Step} {step : Step}
  {stimulus : Stimulus}

theorem accepted_append (first second : List Step) :
    accepted (first ++ second) = accepted first ++ accepted second := List.filterMap_append

/-- Only a packet brings something to store. -/
theorem Path.accepted_eq_nil (h : Path stimulus s steps t)
    (silent : ∀ payload, stimulus ≠ .datagram payload) : accepted steps = [] := by
  refine h.invariant (I := fun journal _ => accepted journal = []) ?_ [] rfl
  intro now journal f g r r' out out' mark nothing move
  rw [accepted_append, nothing]
  cases move with
  | stored received _ _ => exact absurd received (silent _)
  | dropped | forwarded | unsent | missed | delivered | retried | told | closed => rfl

/-- An operation that ends without a fault is a passage that stores what the operation brings. -/
theorem ensures_perform (operation : Operation) (s : Scene UdpFlow σ) :
    Ensures operation.perform s fun _ t => ∃ steps, Passage operation.stimulus s steps t ∧
      accepted steps = operation.accepted s.self := by
  have silent {t u : Scene UdpFlow σ} {steps : List Step} (path : Path .other t steps u) :
      accepted steps = [] := path.accepted_eq_nil (by rintro _ ⟨⟩)
  cases operation with
  | receive packet =>
    refine ensures_receive (fun ignored => ?_) ?_
    · refine ⟨[], .quiet (.refl _), ?_⟩
      rcases ignored with closed | empty
      · simp only [Operation.accepted, closed]
        split <;> rfl
      · simp only [Operation.accepted, empty]
        rfl
    · intro payload stored ring hp isOpen pushed step steps t first path passage
      have received : (Operation.receive packet).stimulus = .datagram payload := by
        rw [Operation.stimulus, Stimulus.ofPacket, hp]
      have room := DatagramRing.stored_of_push pushed
      have brings : (Operation.receive packet).accepted s.self = if stored then [payload] else [] := by
        rw [Operation.accepted, hp, isOpen, room]
        rfl
      refine ⟨_, received ▸ passage, ?_⟩
      rw [brings, ← List.singleton_append, accepted_append, silent path, List.append_nil]
      cases stored <;> simp [accepted, first, Mark.accepted?]
  | ready readiness =>
    refine (reaches_onReady readiness s).mono ?_
    rintro _ t ⟨steps, passage⟩
    exact ⟨steps, passage, silent passage.path⟩
  | pull =>
    refine (reaches_pull s).mono ?_
    rintro _ t ⟨steps, passage⟩
    exact ⟨steps, passage, silent passage.path⟩
  | disconnect =>
    refine (reaches_close s).mono ?_
    rintro _ t ⟨steps, passage⟩
    exact ⟨steps, passage, passage.path.accepted_eq_nil (by rintro _ ⟨⟩)⟩

/-- What holds of a fresh flow and is preserved by every move holds after every run. -/
theorem Run.invariant {I : List Step → UdpFlow → Prop} (fresh : ∀ {f : UdpFlow}, Fresh f → I [] f)
    (preserved : ∀ {stimulus : Stimulus} {now : Nat} {journal : List Step} {f g : UdpFlow}
      {r r' : Registry} {out out' : σ} {mark : Mark}, I journal f →
      Move stimulus now ⟨f, r, out⟩ mark ⟨g, r', out'⟩ → I (journal ++ [⟨f, mark, g⟩]) g)
    (run : Run journal s) : I journal s.self := by
  induction run with
  | start parsed started => exact fresh (fresh_of_start parsed started)
  | world _ _ _ _ ih => exact ih
  | act _ _ course ih => exact course.path.invariant preserved _ ih

/-- What holds of a fresh flow and is preserved by every move holds before and after each move of a
run. -/
theorem Run.invariant_step {I : List Step → UdpFlow → Prop}
    (fresh : ∀ {f : UdpFlow}, Fresh f → I [] f)
    (preserved : ∀ {stimulus : Stimulus} {now : Nat} {journal : List Step} {f g : UdpFlow}
      {r r' : Registry} {out out' : σ} {mark : Mark}, I journal f →
      Move stimulus now ⟨f, r, out⟩ mark ⟨g, r', out'⟩ → I (journal ++ [⟨f, mark, g⟩]) g)
    (run : Run journal s) (h : pre ++ [step] <+: journal) :
    I pre step.before ∧ I (pre ++ [step]) step.after ∧
      ∃ (stimulus : Stimulus) (now : Nat) (r r' : Registry) (out out' : σ),
        Move stimulus now ⟨step.before, r, out⟩ step.mark ⟨step.after, r', out'⟩ := by
  have all := run.invariant (I := fun journal f => I journal f ∧
    ∀ pre step, pre ++ [step] <+: journal → I pre step.before ∧ I (pre ++ [step]) step.after ∧
      ∃ (stimulus : Stimulus) (now : Nat) (r r' : Registry) (out out' : σ),
        Move stimulus now ⟨step.before, r, out⟩ step.mark ⟨step.after, r', out'⟩)
    (fun hf => ⟨fresh hf, fun pre step h => by simp at h⟩) ?_
  · exact all.2 pre step h
  · rintro stimulus now journal f g r r' out out' mark ⟨hf, earlier⟩ move
    refine ⟨preserved hf move, fun pre step h => ?_⟩
    rcases List.prefix_concat_iff.1 h with same | earlier'
    · obtain ⟨rfl, ⟨⟩⟩ := List.append_inj' same rfl
      exact ⟨hf, preserved hf move, stimulus, now, r, r', out, out', move⟩
    · exact earlier pre step earlier'

/-- Every operation that ends without a fault extends the run by moves that account for all of its
calls on the host. -/
def Continues (journal : List Step) (s : Scene UdpFlow σ) : Prop :=
  ∀ (operation : Operation) (t : Scene UdpFlow σ), operation.perform s = .ok ((), t) →
    ∃ steps, Course operation s steps t ∧ Run (journal ++ steps) t ∧
      t.host.calls = (calls steps).reverse ++ s.host.calls

theorem Run.continues (run : Run journal s) : Continues journal s := by
  intro operation t performed
  obtain ⟨steps, passage, accepted_eq⟩ := ensures_perform operation s () t performed
  exact ⟨steps, ⟨passage.path, accepted_eq⟩, run.act performed ⟨passage.path, accepted_eq⟩,
    passage.path.after.calls_eq⟩

/-- What holds of a fresh flow and is kept by every passage holds after every operation. It may speak
of the calls so far, but not of the moves that they belong to. -/
theorem Run.at_rest {I : List Event → UdpFlow → Prop} (fresh : ∀ {f : UdpFlow}, Fresh f → I [] f)
    (kept : ∀ {stimulus : Stimulus} {journal steps : List Step} {s t : Scene UdpFlow σ},
      Passage stimulus s steps t → I (calls journal) s.self → I (calls (journal ++ steps)) t.self)
    (run : Run journal s) : I (calls journal) s.self := by
  induction run with
  | start parsed started => exact fresh (fresh_of_start parsed started)
  | world _ _ _ _ ih => exact ih
  | @act journal steps s t _ operation performed course ih =>
    obtain ⟨steps', passage, -⟩ := ensures_perform operation s () t performed
    have same : calls steps = calls steps' := by
      have := course.path.after.calls_eq.symm.trans passage.path.after.calls_eq
      exact List.reverse_inj.1 (List.append_cancel_right this)
    have after := kept passage ih
    rw [calls_append] at after ⊢
    exact same ▸ after

def performAll : List (σ × Operation) → Act UdpFlow σ Unit
  | [] => return ()
  | (out, operation) :: rest => do
    modify fun s => { s with out }
    operation.perform
    performAll rest

theorem Run.ensures_performAll {operations : List (σ × Operation)} (run : Run journal s) :
    Ensures (performAll operations) s fun _ t => ∃ steps, Run (journal ++ steps) t ∧
      t.host.calls = (calls steps).reverse ++ s.host.calls := by
  induction operations generalizing journal s with
  | nil => exact (ensures_pure _).2 ⟨[], by simpa using run, rfl⟩
  | cons first rest ih =>
    obtain ⟨out, operation⟩ := first
    rw [performAll, ensures_bind, ensures_modify, ensures_bind]
    intro _ t performed
    obtain ⟨steps, -, run', called⟩ := (run.world s.registry out s.host).continues _ _ performed
    refine (ih run').mono ?_
    rintro _ u ⟨more, run'', called'⟩
    refine ⟨steps ++ more, by simpa using run'', ?_⟩
    rw [called', called]
    simp [calls]

def enact (bytes : Bytes) (config : Config) (host : Host) (operations : List (Credit × Operation)) :
    Checked (Option (List Event × Scene UdpFlow Credit)) := do
  let request ← Packet.ofBytes bytes
  match ← FlowKey.ofPacket request with
  | none => return none
  | some key =>
    match ← start 1 key request config (⟨(), {}, ⟨none⟩, host⟩ : Scene Unit Credit) with
    | (.error _, _) => return none
    | (.ok f, s) =>
      let (_, t) ← performAll operations ⟨f, s.registry, s.out, s.host⟩
      return some ((t.host.calls.take (t.host.calls.length - s.host.calls.length)).reverse, t)

def enacts (bytes : Bytes) (config : Config) (host : Host) (operations : List (Credit × Operation))
    (p : List Event → Scene UdpFlow Credit → Bool) : Bool :=
  match enact bytes config host operations with
  | .ok (some (events, t)) => p events t
  | _ => false

theorem exists_run_of_enacts {bytes : Bytes} {config : Config} {host : Host}
    {operations : List (Credit × Operation)} {p : List Event → Scene UdpFlow Credit → Bool}
    (h : enacts bytes config host operations p = true) :
    ∃ journal t, Run journal t ∧ p (calls journal) t = true := by
  unfold enacts at h
  split at h
  · next events t enacted =>
    simp only [enact, checked_bind_eq_ok] at enacted
    obtain ⟨request, parsed, key, -, enacted⟩ := enacted
    split at enacted
    · cases enacted
    simp only [checked_bind_eq_ok] at enacted
    obtain ⟨⟨result, s⟩, started, enacted⟩ := enacted
    split at enacted
    · cases enacted
    · next f s' same =>
      cases same
      simp only [checked_bind_eq_ok] at enacted
      obtain ⟨⟨_, t'⟩, performed, enacted⟩ := enacted
      cases enacted
      obtain ⟨steps, run, called⟩ := (Run.start parsed started).ensures_performAll _ _ performed
      rw [called] at h
      refine ⟨steps, _, run, ?_⟩
      simpa using h
  · cases h

def devicePacket (payload : Bytes) : Bytes :=
  [0x45, 0, 0, (28 + payload.length).toUInt8, 0, 0, 0x40, 0, 64, 17, 0, 0, 10, 0, 0, 2, 8, 8, 8, 8, 0xa0,
    0x28, 0, 53, 0, (8 + payload.length).toUInt8, 0, 0] ++ payload

def Operation.ofDevice (payload : Bytes) : Operation :=
  match Packet.ofBytes (devicePacket payload) with
  | .ok packet => .receive packet
  | .error _ => .pull

end UdpFlow

end TunnelRelay
