import TunnelRelay.Proofs.Act
import TunnelRelay.Proofs.Fault

/-!
# Actions that come to an end

`act.Achieves s Q` says that an action that starts in the scene `s` stops at no fault and leads to
what `Q` describes. Unlike `Ensures` it leaves no way out: every check on the way has to be passed,
and a loop has to end within its bound, which a measure of its rounds shows.
-/

namespace TunnelRelay.Act

variable {α β γ σ : Type} {s : Scene α σ} {Q : β → Scene α σ → Prop}

/-- The action ends without a fault, and its value and the scene behind it are as `Q` says. -/
def Achieves (act : Act α σ β) (s : Scene α σ) (Q : β → Scene α σ → Prop) : Prop :=
  ∃ b t, act s = .ok (b, t) ∧ Q b t

theorem Achieves.mono {act : Act α σ β} {P : β → Scene α σ → Prop} (h : act.Achieves s P)
    (hPQ : ∀ b t, P b t → Q b t) : act.Achieves s Q := by
  obtain ⟨b, t, ht, hP⟩ := h
  exact ⟨b, t, ht, hPQ b t hP⟩

theorem Achieves.ensures {act : Act α σ β} (h : act.Achieves s Q) : act.Ensures s Q := by
  obtain ⟨b, t, ht, hQ⟩ := h
  intro b' t' ht'
  cases ht.symm.trans ht'
  exact hQ

theorem Achieves.ends {act : Act α σ Unit} {Q : Unit → Scene α σ → Prop} (h : act.Achieves s Q) :
    ∃ t, act s = .ok ((), t) := by
  obtain ⟨_, t, ht, -⟩ := h
  exact ⟨t, ht⟩

theorem Achieves.and {act : Act α σ β} {P : β → Scene α σ → Prop} (h : act.Achieves s P)
    (h' : act.Ensures s Q) : act.Achieves s fun b t => P b t ∧ Q b t := by
  obtain ⟨b, t, ht, hP⟩ := h
  exact ⟨b, t, ht, hP, h' b t ht⟩

theorem Achieves.bind {act : Act α σ γ} {f : γ → Act α σ β} {P : γ → Scene α σ → Prop}
    (h : act.Achieves s P) (hf : ∀ c t, P c t → (f c).Achieves t Q) : (act >>= f).Achieves s Q := by
  obtain ⟨c, t, ht, hP⟩ := h
  obtain ⟨b, u, hu, hQ⟩ := hf c t hP
  refine ⟨b, u, ?_, hQ⟩
  rw [bind_apply, ht]
  exact hu

@[simp]
theorem achieves_bind (act : Act α σ γ) (f : γ → Act α σ β) :
    Achieves (act >>= f) s Q ↔ Achieves act s fun c t => Achieves (f c) t Q := by
  constructor
  · rintro ⟨b, u, hu, hQ⟩
    rw [bind_apply, checked_bind_eq_ok] at hu
    obtain ⟨⟨c, t⟩, ht, hu⟩ := hu
    exact ⟨c, t, ht, b, u, hu, hQ⟩
  · intro h
    exact h.bind fun _ _ h => h

@[simp]
theorem achieves_pure (b : β) : Achieves (pure b) s Q ↔ Q b s := by
  constructor
  · rintro ⟨b', t, ht, hQ⟩
    cases ht
    exact hQ
  · intro h
    exact ⟨b, s, rfl, h⟩

@[simp]
theorem achieves_map (act : Act α σ γ) (f : γ → β) :
    Achieves (f <$> act) s Q ↔ Achieves act s fun c t => Q (f c) t := by
  rw [map_eq_pure_bind, achieves_bind]
  simp

@[simp]
theorem achieves_modifyGet (f : Scene α σ → β × Scene α σ) :
    Achieves (modifyGet f : Act α σ β) s Q ↔ Q (f s).1 (f s).2 := by
  constructor
  · rintro ⟨b, t, ht, hQ⟩
    change Except.ok (f s) = Except.ok (b, t) at ht
    rw [Except.ok.inj ht]
    exact hQ
  · intro h
    exact ⟨_, _, rfl, h⟩

@[simp]
theorem achieves_get {Q : Scene α σ → Scene α σ → Prop} :
    Achieves (get : Act α σ (Scene α σ)) s Q ↔ Q s s := achieves_pure s

@[simp]
theorem achieves_modify {Q : Unit → Scene α σ → Prop} (f : Scene α σ → Scene α σ) :
    Achieves (modify f : Act α σ Unit) s Q ↔ Q () (f s) :=
  achieves_modifyGet fun s => ((), f s)

/-- A checked computation has to succeed. -/
@[simp]
theorem achieves_liftM (c : Checked β) :
    Achieves (liftM c : Act α σ β) s Q ↔ ∃ b, c = .ok b ∧ Q b s := by
  constructor
  · rintro ⟨b, t, ht, hQ⟩
    rw [liftM_apply, checked_bind_eq_ok] at ht
    obtain ⟨b, hb, ⟨⟩⟩ := ht
    exact ⟨b, hb, hQ⟩
  · rintro ⟨b, rfl, hQ⟩
    exact ⟨b, s, rfl, hQ⟩

@[simp]
theorem achieves_self {Q : α → Scene α σ → Prop} : Achieves self s Q ↔ Q s.self s := by
  unfold self
  rw [achieves_bind, achieves_get, achieves_pure]

@[simp]
theorem achieves_setSelf {Q : Unit → Scene α σ → Prop} (a : α) :
    Achieves (setSelf a) s Q ↔ Q () { s with self := a } := achieves_modify _

@[simp]
theorem achieves_modifySelf {Q : Unit → Scene α σ → Prop} (f : α → α) :
    Achieves (modifySelf f) s Q ↔ Q () { s with self := f s.self } := achieves_modify _

@[simp]
theorem achieves_call (f : Host → β × Host) :
    Achieves (call f) s Q ↔ Q (f s.host).1 { s with host := (f s.host).2 } :=
  achieves_modifyGet _

@[simp]
theorem achieves_tell {Q : Unit → Scene α σ → Prop} (f : Host → Host) :
    Achieves (tell f) s Q ↔ Q () { s with host := f s.host } := achieves_modify _

@[simp]
theorem achieves_note {Q : Unit → Scene α σ → Prop} (notice : Notice) :
    Achieves (note notice) s Q ↔ Q () { s with host := s.host.record (.notice notice) } :=
  achieves_tell _

@[simp]
theorem achieves_now {Q : Nat → Scene α σ → Prop} : Achieves now s Q ↔ Q s.host.clock s := by
  unfold now
  rw [achieves_bind, achieves_get, achieves_pure]

@[simp]
theorem achieves_runOn {part : γ} {act : Act γ σ β} {Q : β × γ → Scene α σ → Prop} :
    Achieves (runOn part act) s Q ↔
      Achieves act { s with self := part } fun b t => Q (b, t.self) { t with self := s.self } := by
  constructor
  · rintro ⟨⟨b, c⟩, t, ht, hQ⟩
    simp only [runOn, checked_bind_eq_ok, checked_pure_eq_ok] at ht
    obtain ⟨⟨b', u⟩, hu, same⟩ := ht
    cases same
    exact ⟨b', u, hu, hQ⟩
  · rintro ⟨b, t, ht, hQ⟩
    refine ⟨(b, t.self), { t with self := s.self }, ?_, hQ⟩
    simp only [runOn, ht, ok_bind]
    rfl

@[simp]
theorem achieves_on {part : α → γ} {put : γ → α → α} {act : Act γ σ β} :
    Achieves (on part put act) s Q ↔ Achieves act { s with self := part s.self } fun b t =>
      Q b { t with self := put t.self s.self } := by
  simp [on]

/-- What a round of a loop leads to: to another round with less than `left` of the measure, or to
the end. -/
def Progress (I : γ → Scene α σ → Prop) (μ : γ → Scene α σ → Nat) (Q : β → Scene α σ → Prop)
    (left : Nat) : Round γ β → Scene α σ → Prop
  | .again c, s => I c s ∧ μ c s < left
  | .done b, s => Q b s

section Loops

variable {I : γ → Scene α σ → Prop} {μ : γ → Scene α σ → Nat} {left : Nat}

@[simp]
theorem progress_again {c : γ} : Progress I μ Q left (.again c) s ↔ I c s ∧ μ c s < left := .rfl

@[simp]
theorem progress_done {b : β} : Progress I μ Q left (.done b) s ↔ Q b s := .rfl

/-- A loop ends within its bound if a measure below the bound goes down with every round. -/
theorem achieves_iterate {step : γ → Act α σ (Round γ β)}
    (round : ∀ c s, I c s → Achieves (step c) s (Progress I μ Q (μ c s))) {bound : Nat} {c : γ}
    (h : I c s) (enough : μ c s < bound) : Achieves (iterate bound step c) s Q := by
  induction bound generalizing c s with
  | zero => exact absurd enough (Nat.not_lt_zero _)
  | succ bound ih =>
    rw [iterate]
    refine (round c s h).bind ?_
    rintro (c' | b) t progress
    · obtain ⟨h', less⟩ := progress_again.1 progress
      exact ih h' (Nat.lt_of_lt_of_le less (Nat.le_of_lt_succ enough))
    · exact (achieves_pure b).2 (progress_done.1 progress)

end Loops

end TunnelRelay.Act
