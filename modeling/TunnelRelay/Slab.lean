import TunnelRelay.Bytes

/-!
# Slabs

A slab is a fixed amount of room in which a packet is put together. Its front part is filled; what
lies behind keeps the bytes of earlier packets until it is written again, and room that was never
written is zero.
-/

namespace TunnelRelay

/-- A fixed amount of room with a filled front part. -/
structure Slab where
  filled : Bytes
  /-- What follows the filled part, as far as it was ever written. -/
  spare : Bytes
  /-- The number of zero bytes behind. -/
  blank : Nat
  deriving DecidableEq

namespace Slab

def zeroed (capacity : Nat) : Slab := ⟨[], [], capacity⟩

/-- An empty slab, where there can be one of this capacity. -/
def ofCapacity (capacity : Nat) : Checked Slab :=
  if capacity < bufferLimit then .ok (zeroed capacity) else .error .oversize

def length (s : Slab) : Nat := s.filled.length

def isEmpty (s : Slab) : Bool := s.filled.isEmpty

def remaining (s : Slab) : Nat := s.spare.length + s.blank

def capacity (s : Slab) : Nat := s.length + s.remaining

/-- Forgets what is filled; the bytes themselves stay in place. -/
def clear (s : Slab) : Slab := ⟨[], s.filled ++ s.spare, s.blank⟩

/-- What the next `n` bytes hold. -/
def ahead (s : Slab) (n : Nat) : Bytes :=
  s.spare.take n ++ List.replicate (n - s.spare.length) 0

/-- The zero bytes that are left behind the next `n` bytes. -/
def blankBehind (s : Slab) (n : Nat) : Nat := s.blank - (n - s.spare.length)

private def filling (s : Slab) (bytes : Bytes) : Slab :=
  ⟨s.filled ++ bytes, s.spare.drop bytes.length, s.blankBehind bytes.length⟩

/-- Fills the next bytes with `bytes`, which have to fit. -/
def put (s : Slab) (bytes : Bytes) : Checked Slab :=
  if bytes.length ≤ s.remaining then .ok (s.filling bytes) else .error .outOfRange

/-- Writes `bytes` to the front of the spare room without filling it. -/
def lay (s : Slab) (bytes : Bytes) : Checked Slab :=
  if bytes.length ≤ s.remaining then
    .ok ⟨s.filled, bytes ++ s.spare.drop bytes.length, s.blankBehind bytes.length⟩
  else .error .outOfRange

/-- Counts the next `n` bytes as filled, whatever they hold. -/
def advance (s : Slab) (n : Nat) : Checked Slab :=
  if s.length + n < 0x10000000000000000 then
    if n ≤ s.remaining then .ok (s.filling (s.ahead n)) else .error .assertion
  else .error .overflow

def set (s : Slab) (i : Nat) (b : UInt8) : Checked Slab :=
  if i < s.filled.length then .ok { s with filled := s.filled.set i b } else .error .outOfRange

def describe (s : Slab) : String :=
  "FixedBuf[" ++ toString s.length ++ "/" ++ toString s.capacity ++ "]"

@[simp]
theorem capacity_zeroed (n : Nat) : (zeroed n).capacity = n := by
  simp [zeroed, capacity, length, remaining]

@[simp]
theorem capacity_clear (s : Slab) : s.clear.capacity = s.capacity := by
  simp [clear, capacity, length, remaining]
  omega

@[simp]
theorem length_ahead (s : Slab) (n : Nat) : (s.ahead n).length = n := by
  simp [ahead]
  omega

private theorem capacity_filling {s : Slab} {bytes : Bytes} (h : bytes.length ≤ s.remaining) :
    (s.filling bytes).capacity = s.capacity := by
  simp only [remaining] at h
  simp [filling, capacity, length, remaining, blankBehind]
  omega

theorem filled_of_put {s t : Slab} {bytes : Bytes} (h : s.put bytes = .ok t) :
    t.filled = s.filled ++ bytes ∧ t.capacity = s.capacity := by
  unfold put at h
  split at h
  · next fits =>
    cases h
    exact ⟨rfl, capacity_filling fits⟩
  · cases h

theorem ahead_of_lay {s t : Slab} {bytes : Bytes} (h : s.lay bytes = .ok t) :
    t.filled = s.filled ∧ t.ahead bytes.length = bytes ∧ t.capacity = s.capacity := by
  unfold lay at h
  split at h
  · next fits =>
    cases h
    simp only [remaining] at fits
    refine ⟨rfl, by simp [ahead], ?_⟩
    simp [capacity, length, remaining, blankBehind]
    omega
  · cases h

theorem filled_of_advance {s t : Slab} {n : Nat} (h : s.advance n = .ok t) :
    t.filled = s.filled ++ s.ahead n ∧ t.capacity = s.capacity := by
  unfold advance at h
  split at h
  · split at h
    · next fits =>
      cases h
      exact ⟨rfl, capacity_filling (by simpa using fits)⟩
    · cases h
  · cases h

end Slab

end TunnelRelay
