import TunnelRelay.Ring.Cells

/-!
# Stream ring

A bounded queue of bytes in a circular row of cells. The row has one cell more than the capacity, so
that `head = tail` means empty and never full. Bytes leave in runs that do not cross the end of the
row.
-/

namespace TunnelRelay

/-- A bounded queue of bytes: `head` is where the next byte enters, `tail` where the next one
leaves. -/
structure StreamRing where
  cells : Cells
  head : Nat
  tail : Nat

namespace StreamRing

def ofCapacity (capacity : Nat) : Checked StreamRing := do
  return ⟨← Cells.zeroed (capacity + 1), 0, 0⟩

def size (r : StreamRing) : Nat := r.cells.size

def capacity (r : StreamRing) : Nat := r.size - 1

def length (r : StreamRing) : Nat :=
  if r.tail ≤ r.head then r.head - r.tail else r.head + r.size - r.tail

def isEmpty (r : StreamRing) : Bool := r.head == r.tail

def remaining (r : StreamRing) : Nat := r.capacity - r.length

/-- Takes as many of the offered bytes as fit, first ones first, and says how many. -/
def push (r : StreamRing) (bytes : Bytes) : Checked (Nat × StreamRing) := do
  let n := min bytes.length r.remaining
  let first := min n (r.size - r.head)
  let cells ← r.cells.write r.head (bytes.take first)
  let cells ← cells.write 0 ((bytes.take n).drop first)
  return (n, { r with cells, head := (r.head + n) % r.size })

/-- The oldest bytes, up to the end of the row. -/
def front (r : StreamRing) : Checked Bytes :=
  r.cells.read r.tail (if r.tail < r.head then r.head else r.size)

def drop (r : StreamRing) (n : Nat) : StreamRing := { r with tail := (r.tail + n) % r.size }

/-- The content, oldest byte first. -/
def toList (r : StreamRing) : Bytes :=
  (List.range r.length).map fun i => r.cells.get ((r.tail + i) % r.size)

@[simp]
theorem length_toList (r : StreamRing) : r.toList.length = r.length := by simp [toList]

private theorem ofCapacity_inv {n : Nat} {r : StreamRing} (h : ofCapacity n = .ok r) :
    r.size = n + 1 ∧ r.head = 0 ∧ r.tail = 0 := by
  unfold ofCapacity at h
  cases h' : Cells.zeroed (n + 1) with
  | error fault => simp [h', bind, Except.bind] at h
  | ok cells =>
    simp only [h', bind, Except.bind, pure, Except.pure, Except.ok.injEq] at h
    subst h
    exact ⟨Cells.size_of_zeroed h', rfl, rfl⟩

theorem toList_of_ofCapacity {n : Nat} {r : StreamRing} (h : ofCapacity n = .ok r) :
    r.toList = [] := by
  have ⟨_, hh, ht⟩ := ofCapacity_inv h
  simp [toList, length, hh, ht]

theorem capacity_of_ofCapacity {n : Nat} {r : StreamRing} (h : ofCapacity n = .ok r) :
    r.capacity = n := by
  simp [capacity, ofCapacity_inv h]

theorem taken_of_push {r s : StreamRing} {bytes : Bytes} {n : Nat} (h : r.push bytes = .ok (n, s)) :
    n = min bytes.length r.remaining := by
  simp only [push, bind, Except.bind, pure, Except.pure] at h
  repeat' split at h
  all_goals simp_all

end StreamRing

end TunnelRelay
