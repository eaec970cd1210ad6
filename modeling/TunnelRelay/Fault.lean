/-!
# Faults

A fault is a broken internal rule: an index outside its buffer, a failed check, a number that does
not fit, a buffer of impossible size. No input of a well-formed relay is meant to reach one, so
faults are kept apart from the failures that a host may report and the relay answers to.
-/

namespace TunnelRelay

inductive Fault where
  /-- A range of bytes reaches beyond its buffer. -/
  | outOfRange
  /-- A condition that the caller had to establish does not hold. -/
  | assertion
  /-- A number does not fit into the narrower type it is stored in. -/
  | narrowing
  /-- A sum or difference leaves the range of its type. -/
  | overflow
  /-- A buffer would be larger than any that a machine provides. -/
  | oversize
  /-- A loop took more rounds than its bound admits. -/
  | unbounded
  deriving DecidableEq, Repr

/-- A computation that yields a value or stops at a fault. -/
abbrev Checked (α : Type) := Except Fault α

/-- Continues only where `p` holds. -/
def require (p : Prop) [Decidable p] (fault : Fault) : Checked Unit :=
  if p then .ok () else .error fault

/-- The least size that no single buffer can have: half of a 64-bit address space. -/
def bufferLimit : Nat := 0x8000000000000000

/-- A length as a 16-bit number, where it fits. -/
def narrow16 (n : Nat) : Checked UInt16 :=
  if n < 0x10000 then .ok n.toUInt16 else .error .narrowing

/-- A length as a 32-bit number, where it fits. -/
def narrow32 (n : Nat) : Checked UInt32 :=
  if n < 0x100000000 then .ok n.toUInt32 else .error .narrowing

/-- The 32-bit number after `n`. There is none after the last. -/
def succ32 (n : UInt32) : Checked UInt32 :=
  if n.toNat + 1 < 0x100000000 then .ok (n + 1) else .error .overflow

@[simp]
theorem require_eq_ok {p : Prop} [Decidable p] {fault : Fault} :
    require p fault = .ok () ↔ p := by
  simp [require]

theorem narrow16_eq_ok {n : Nat} (h : n < 0x10000) : narrow16 n = .ok n.toUInt16 := if_pos h

theorem narrow32_eq_ok {n : Nat} (h : n < 0x100000000) : narrow32 n = .ok n.toUInt32 := if_pos h

end TunnelRelay
