import TunnelRelay.Bytes

/-!
# Cells

The memory below the ring buffers and the framing: a fixed row of bytes, all zero at first, that is
read and written in ranges. A range that leaves the row is a fault. Only the front of the row that was
ever written is kept, so that a large row costs no more than what is put into it.
-/

namespace TunnelRelay

structure Cells where
  size : Nat
  /-- The front of the row; the cells behind it are zero. -/
  front : Array UInt8
  front_le : front.size ≤ size

namespace Cells

/-- A row of zero bytes. -/
def blank (size : Nat) : Cells := ⟨size, #[], Nat.zero_le size⟩

/-- A row of zero bytes, where there can be one of this size. -/
def zeroed (size : Nat) : Checked Cells :=
  if size < bufferLimit then .ok (.blank size) else .error .oversize

def get (cells : Cells) (i : Nat) : UInt8 := cells.front.getD i 0

def set (cells : Cells) (i : Nat) (b : UInt8) : Cells :=
  if inFront : i < cells.front.size then
    ⟨cells.size, cells.front.setIfInBounds i b, by simpa using cells.front_le⟩
  else if inRow : i < cells.size then
    ⟨cells.size, (cells.front ++ Array.replicate (i - cells.front.size) 0).push b, by
      have := cells.front_le
      simp
      omega⟩
  else cells

/-- Writes bytes into the cells from `start` on. -/
def fill (cells : Cells) (start : Nat) : Bytes → Cells
  | [] => cells
  | b :: rest => (cells.set start b).fill (start + 1) rest

/-- Writes bytes into the cells from `start` on, all of which have to exist. -/
def write (cells : Cells) (start : Nat) (bytes : Bytes) : Checked Cells :=
  if start + bytes.length ≤ cells.size then .ok (cells.fill start bytes) else .error .outOfRange

/-- The bytes in the cells from `start` up to but not including `stop`, all of which have to
exist. -/
def read (cells : Cells) (start stop : Nat) : Checked Bytes :=
  if start ≤ stop ∧ stop ≤ cells.size then
    .ok ((List.range' start (stop - start)).map cells.get)
  else .error .outOfRange

theorem size_of_zeroed {n : Nat} {cells : Cells} (h : zeroed n = .ok cells) : cells.size = n := by
  unfold zeroed at h
  split at h
  · cases h
    rfl
  · cases h

@[simp]
theorem size_set (cells : Cells) (i : Nat) (b : UInt8) : (cells.set i b).size = cells.size := by
  unfold set
  split
  · rfl
  · split <;> rfl

@[simp]
theorem size_fill (cells : Cells) (start : Nat) (bytes : Bytes) :
    (cells.fill start bytes).size = cells.size := by
  induction bytes generalizing cells start with
  | nil => rfl
  | cons b rest ih => simp [fill, ih]

theorem get_set {cells : Cells} {i : Nat} (h : i < cells.size) (b : UInt8) (j : Nat) :
    (cells.set i b).get j = if i = j then b else cells.get j := by
  unfold set
  split
  · simp only [get, Array.getD_eq_getD_getElem?, Array.getElem?_setIfInBounds]
    grind
  · simp only [get, Array.getD_eq_getD_getElem?, Array.getElem?_push,
      Array.getElem?_append, Array.getElem?_replicate, Array.size_append, Array.size_replicate]
    grind

theorem get_fill {cells : Cells} {start : Nat} {bytes : Bytes}
    (h : start + bytes.length ≤ cells.size) (j : Nat) :
    (cells.fill start bytes).get j =
      if start ≤ j ∧ j < start + bytes.length then bytes.getD (j - start) 0 else cells.get j := by
  induction bytes generalizing cells start with
  | nil => grind [fill]
  | cons b rest ih =>
    simp only [List.length_cons] at h ⊢
    rw [fill, ih (by simp; omega), get_set (by omega)]
    grind

end Cells

end TunnelRelay
