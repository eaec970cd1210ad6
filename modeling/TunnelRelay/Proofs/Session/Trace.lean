import TunnelRelay.Proofs.Session.Run

/-!
# Traces of a session

A trace is a run of a session together with all the moves that the session made in it. What a fresh
session has and every move keeps holds at every point of a trace.
-/

namespace TunnelRelay

open Act

namespace Session

/-- The scenes that a session can get into, and what it did on the way. -/
inductive Trace : List Deed → Scene Session Unit → Prop where
  | start {α : Type} {id : Nat} {socket : SocketId} {config : Config} {s t : Scene α Unit}
      {session : Session} (checked : config.check = .ok ()) (opened : socket < s.host.nextSocket)
      (started : Session.start id socket config s = .ok (.ok session, t)) :
      Trace [] ⟨session, t.registry, (), t.host⟩
  | world {deeds : List Deed} {s : Scene Session Unit} (trace : Trace deeds s)
      (registry : Registry) {host : Host} (undisturbed : Host.Aside s.self.socket s.host host) :
      Trace deeds { s with registry, host }
  | act {deeds more : List Deed} {s t : Scene Session Unit} (trace : Trace deeds s)
      {operation : Operation} (performed : operation.perform s = .ok ((), t))
      (path : Path s more t) : Trace (deeds ++ more) t

variable {deeds pre : List Deed} {deed : Deed} {s t : Scene Session Unit}

theorem Trace.run (trace : Trace deeds s) : Run s := by
  induction trace with
  | start checked opened started => exact .start checked opened started
  | world _ registry undisturbed ih => exact ih.world registry undisturbed
  | act _ performed _ ih => exact ih.act performed

/-- Every operation that ends without a fault extends the trace by moves that account for all of its
calls on the host. -/
theorem Trace.continues (trace : Trace deeds s) {operation : Operation}
    (performed : operation.perform s = .ok ((), t)) :
    ∃ more, Trace (deeds ++ more) t ∧ s.host.Adds (calls s.self.socket more) t.host := by
  obtain ⟨coherent, rests⟩ := trace.run.coherent_rests
  obtain ⟨⟨more, path⟩, -⟩ := Operation.settles coherent rests _ _ performed
  exact ⟨more, trace.act performed path, (path.leads coherent).adds⟩

/-- An operation concerns nothing but what the session holds. -/
theorem Run.exchange (run : Run s) {operation : Operation}
    (performed : operation.perform s = .ok ((), t)) : Same s.self t.self ∧
      Exchange s.registry s.host s.self.holdings t.registry t.host t.self.holdings := by
  obtain ⟨coherent, rests⟩ := run.coherent_rests
  obtain ⟨⟨_, path⟩, -⟩ := Operation.settles coherent rests _ _ performed
  have leads := path.leads coherent
  exact ⟨leads.same, leads.exchange⟩

theorem Run.exists_trace (run : Run s) : ∃ deeds, Trace deeds s := by
  induction run with
  | start checked opened started => exact ⟨[], .start checked opened started⟩
  | world _ registry undisturbed ih =>
    obtain ⟨deeds, trace⟩ := ih
    exact ⟨deeds, trace.world registry undisturbed⟩
  | act _ performed ih =>
    obtain ⟨deeds, trace⟩ := ih
    obtain ⟨more, trace', -⟩ := trace.continues performed
    exact ⟨_, trace'⟩

/-- What a session starts with. -/
structure Fresh (s : Session) : Prop where
  isOpen : s.closed = false
  framing_eq : s.framing = {}
  empty : s.outbox.ring.toList = []

/-- What holds of a fresh session and is preserved by every move holds at the end of a trace, and
before and after each of its moves. -/
theorem Trace.invariant_step {I : List Deed → Session → Prop}
    (fresh : ∀ {session : Session}, Fresh session → I [] session)
    (preserved : ∀ {deeds : List Deed} {s : Scene Session Unit} {deed : Deed}
      {t : Scene Session Unit}, Coherent s → I deeds s.self → Move s deed t →
      I (deeds ++ [deed]) t.self)
    (trace : Trace deeds s) : I deeds s.self ∧ ∀ pre deed, pre ++ [deed] <+: deeds →
      ∃ s t, Coherent s ∧ Move s deed t ∧ I pre s.self ∧ I (pre ++ [deed]) t.self := by
  -- The scene is coherent all along, which the step of `I` may use.
  let All (deeds : List Deed) (s : Scene Session Unit) : Prop := Coherent s ∧ I deeds s.self ∧
    ∀ pre deed, pre ++ [deed] <+: deeds →
      ∃ s t, Coherent s ∧ Move s deed t ∧ I pre s.self ∧ I (pre ++ [deed]) t.self
  suffices All deeds s from this.2
  induction trace with
  | start checked opened started =>
    obtain ⟨_, starts⟩ := ensures_start (Config.check_eq_ok_iff.1 checked) opened _ _ started
    obtain ⟨-, -, isOpen, framing, empty⟩ := starts.fresh rfl
    refine ⟨(starts.rests rfl).intact.toCoherent, fresh ⟨isOpen, framing, empty⟩, ?_⟩
    intro pre deed h
    simp at h
  | world _ registry undisturbed ih =>
    exact ⟨ih.1.world registry undisturbed.nextSocket_le, ih.2⟩
  | act _ _ path ih =>
    refine path.induct (I := All) ?_ ?_ _ ih
    · rintro deeds s host ⟨coherent, all⟩ called
      exact ⟨coherent.world _ called.adds.nextSocket_le, all⟩
    · rintro deeds s deed t ⟨coherent, holds, earlier⟩ step
      have next := preserved coherent holds step
      refine ⟨step.coherent coherent, next, fun pre deed' h => ?_⟩
      rcases List.prefix_concat_iff.1 h with same | earlier'
      · obtain ⟨rfl, ⟨⟩⟩ := List.append_inj' same rfl
        exact ⟨s, t, coherent, step, holds, next⟩
      · exact earlier pre deed' earlier'

theorem Run.flows_of_closed (run : Run s) (closed : s.self.closed = true) :
    s.self.table.flows = [] := by
  obtain ⟨deeds, trace⟩ := run.exists_trace
  -- Only the last move of a session closes it, and it clears the table.
  refine (trace.invariant_step (I := fun _ s => s.closed = true → s.table.flows = []) ?_ ?_).1 closed
  · intro session fresh closed
    rw [fresh.isOpen] at closed
    cases closed
  · intro deeds s deed t coherent _ step closed
    obtain ⟨cause, calls, rfl⟩ := step.of_closed closed
    cases step with
    | closed isOpen _ ran adds =>
      obtain ⟨_, -, same⟩ := (closes_of_close coherent isOpen ran adds).self_eq
      rw [same]

end Session

end TunnelRelay
