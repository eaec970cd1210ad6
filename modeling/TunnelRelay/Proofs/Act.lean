import TunnelRelay.Scene

/-!
# Outcomes of actions

`act.Ensures s Q` says what an action that starts in the scene `s` leads to unless it stops at a
fault. The lemmas follow the primitives of `Act`, so that `simp` runs through straight-line actions;
a loop is described by what each of its rounds keeps.
-/

namespace TunnelRelay.Act

variable {α β γ σ : Type} {s : Scene α σ} {Q : β → Scene α σ → Prop}

theorem bind_apply (act : Act α σ γ) (f : γ → Act α σ β) :
    (act >>= f) s = act s >>= fun r => f r.1 r.2 := rfl

theorem get_apply : (get : Act α σ (Scene α σ)) s = .ok (s, s) := rfl

theorem self_apply : self s = .ok (s.self, s) := rfl

theorem call_apply (f : Host → β × Host) :
    call f s = .ok ((f s.host).1, { s with host := (f s.host).2 }) := rfl

theorem note_apply (notice : Notice) :
    note notice s = .ok ((), { s with host := s.host.record (.notice notice) }) := rfl

theorem liftM_apply (c : Checked β) :
    (liftM c : Act α σ β) s = c >>= fun b => .ok (b, s) := rfl

/-- Whenever the action ends without a fault, its value and the scene behind it are as `Q` says. -/
def Ensures (act : Act α σ β) (s : Scene α σ) (Q : β → Scene α σ → Prop) : Prop :=
  ∀ b t, act s = .ok (b, t) → Q b t

theorem Ensures.mono {act : Act α σ β} {P : β → Scene α σ → Prop} (h : act.Ensures s P)
    (hPQ : ∀ b t, P b t → Q b t) : act.Ensures s Q :=
  fun b t hb => hPQ b t (h b t hb)

@[simp]
theorem ensures_pure (b : β) : Ensures (pure b) s Q ↔ Q b s := by
  constructor
  · intro h
    exact h b s rfl
  · rintro h _ _ ⟨⟩
    exact h

@[simp]
theorem ensures_bind (act : Act α σ γ) (f : γ → Act α σ β) :
    Ensures (act >>= f) s Q ↔ Ensures act s fun c t => Ensures (f c) t Q := by
  constructor
  · intro h c t hc b u hb
    apply h
    change (act s >>= fun r => f r.1 r.2) = _
    rw [hc]
    exact hb
  · intro h b u hb
    change (act s >>= fun r => f r.1 r.2) = _ at hb
    cases hc : act s with
    | error fault =>
      rw [hc] at hb
      cases hb
    | ok r =>
      rw [hc] at hb
      exact h r.1 r.2 hc b u hb

@[simp]
theorem ensures_map (act : Act α σ γ) (f : γ → β) :
    Ensures (f <$> act) s Q ↔ Ensures act s fun c t => Q (f c) t := by
  rw [map_eq_pure_bind, ensures_bind]
  simp

@[simp]
theorem ensures_get {Q : Scene α σ → Scene α σ → Prop} :
    Ensures (get : Act α σ (Scene α σ)) s Q ↔ Q s s := ensures_pure s

@[simp]
theorem ensures_modifyGet (f : Scene α σ → β × Scene α σ) :
    Ensures (modifyGet f : Act α σ β) s Q ↔ Q (f s).1 (f s).2 := by
  constructor
  · intro h
    exact h _ _ rfl
  · intro h b t hb
    change Except.ok (f s) = Except.ok (b, t) at hb
    rw [Except.ok.inj hb] at h
    exact h

@[simp]
theorem ensures_modify {Q : Unit → Scene α σ → Prop} (f : Scene α σ → Scene α σ) :
    Ensures (modify f : Act α σ Unit) s Q ↔ Q () (f s) :=
  ensures_modifyGet fun s => ((), f s)

@[simp]
theorem ensures_liftM (c : Checked β) :
    Ensures (liftM c : Act α σ β) s Q ↔ ∀ b, c = .ok b → Q b s := by
  constructor
  · rintro h b rfl
    exact h b s rfl
  · rintro h b t hb
    cases c with
    | error fault => cases hb
    | ok b =>
      cases hb
      exact h _ rfl

@[simp]
theorem ensures_throw (fault : Fault) : Ensures (throw fault : Act α σ β) s Q := by
  rintro _ _ ⟨⟩

@[simp]
theorem ensures_self {Q : α → Scene α σ → Prop} : Ensures self s Q ↔ Q s.self s := by
  unfold self
  rw [ensures_bind, ensures_get, ensures_pure]

@[simp]
theorem ensures_setSelf {Q : Unit → Scene α σ → Prop} (a : α) :
    Ensures (setSelf a) s Q ↔ Q () { s with self := a } := ensures_modify _

@[simp]
theorem ensures_modifySelf {Q : Unit → Scene α σ → Prop} (f : α → α) :
    Ensures (modifySelf f) s Q ↔ Q () { s with self := f s.self } := ensures_modify _

@[simp]
theorem ensures_call (f : Host → β × Host) :
    Ensures (call f) s Q ↔ Q (f s.host).1 { s with host := (f s.host).2 } :=
  ensures_modifyGet _

@[simp]
theorem ensures_tell {Q : Unit → Scene α σ → Prop} (f : Host → Host) :
    Ensures (tell f) s Q ↔ Q () { s with host := f s.host } := ensures_modify _

@[simp]
theorem ensures_now {Q : Nat → Scene α σ → Prop} : Ensures now s Q ↔ Q s.host.clock s := by
  unfold now
  rw [ensures_bind, ensures_get, ensures_pure]

@[simp]
theorem ensures_runOn {part : γ} {act : Act γ σ β} {Q : β × γ → Scene α σ → Prop} :
    Ensures (runOn part act) s Q ↔
      Ensures act { s with self := part } fun b t => Q (b, t.self) { t with self := s.self } := by
  constructor
  · intro h b t hb
    apply h
    simp [runOn, hb, bind, Except.bind, pure, Except.pure]
  · intro h b u hb
    simp only [runOn, bind, Except.bind, pure, Except.pure] at hb
    split at hb
    · cases hb
    · next r hr =>
      cases hb
      exact h r.1 r.2 hr

@[simp]
theorem ensures_on {part : α → γ} {put : γ → α → α} {act : Act γ σ β} :
    Ensures (on part put act) s Q ↔ Ensures act { s with self := part s.self } fun b t =>
      Q b { t with self := put t.self s.self } := by
  simp [on]

/-- A loop ends as its last round does, and each of its rounds starts as `I` says. -/
theorem ensures_iterate {step : γ → Act α σ (Round γ β)} {I : γ → Scene α σ → Prop}
    (round : ∀ c s, I c s → Ensures (step c) s fun r t =>
      match r with
      | .again c => I c t
      | .done b => Q b t)
    {bound : Nat} {c : γ} (h : I c s) : Ensures (iterate bound step c) s Q := by
  induction bound generalizing c s with
  | zero => exact ensures_throw _
  | succ bound ih =>
    rw [iterate, ensures_bind]
    refine (round c s h).mono ?_
    intro r t ht
    cases r with
    | again c => exact ih ht
    | done b => exact (ensures_pure b).2 ht

/-- Whether the action ends without a fault, in a scene as `p` says. -/
def endsAs (act : Act α σ Unit) (s : Scene α σ) (p : Scene α σ → Bool) : Bool :=
  match act s with
  | .ok (_, t) => p t
  | .error _ => false

theorem exists_of_endsAs {act : Act α σ Unit} {p : Scene α σ → Bool}
    (h : endsAs act s p = true) : ∃ t, act s = .ok ((), t) ∧ p t = true := by
  unfold endsAs at h
  split at h
  · next t performed => exact ⟨t, performed, h⟩
  · cases h

end TunnelRelay.Act
