import TunnelRelay.Fault

/-!
# Computations without a fault

A computation that ends well is taken apart into its steps, each of which ended well.
-/

namespace TunnelRelay

variable {α β : Type}

theorem ok_bind (a : α) (f : α → Checked β) : (.ok a >>= f) = f a := rfl

@[simp]
theorem checked_bind_eq_ok {c : Checked α} {f : α → Checked β} {b : β} :
    (c >>= f) = .ok b ↔ ∃ a, c = .ok a ∧ f a = .ok b := by
  cases c with
  | error fault => simp [bind, Except.bind]
  | ok a => simp [bind, Except.bind]

@[simp]
theorem checked_map_eq_ok {c : Checked α} {f : α → β} {b : β} :
    (f <$> c) = .ok b ↔ ∃ a, c = .ok a ∧ f a = b := by
  cases c with
  | error fault => simp [Functor.map, Except.map]
  | ok a => simp [Functor.map, Except.map]

@[simp]
theorem checked_pure_eq_ok {a b : α} : (pure a : Checked α) = .ok b ↔ a = b := by
  simp [pure, Except.pure]

theorem narrow16_eq_ok_iff {n : Nat} {m : UInt16} : narrow16 n = .ok m ↔ m.toNat = n := by
  unfold narrow16
  split
  · next h =>
    have fits : n.toUInt16.toNat = n := UInt16.toNat_ofNat_of_lt' h
    rw [Except.ok.injEq, ← UInt16.toNat_inj, fits, eq_comm]
  · next h =>
    have := m.toNat_lt
    simp
    omega

theorem succ32_eq {n m : UInt32} (h : succ32 n = .ok m) : m.toNat = n.toNat + 1 := by
  unfold succ32 at h
  split at h
  · next fits =>
    cases h
    exact (UInt32.toNat_add _ _).trans (Nat.mod_eq_of_lt fits)
  · cases h

theorem narrow32_eq {n : Nat} {m : UInt32} (h : narrow32 n = .ok m) : m = n.toUInt32 := by
  unfold narrow32 at h
  split at h <;> cases h
  rfl

end TunnelRelay
