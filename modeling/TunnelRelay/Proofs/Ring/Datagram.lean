import TunnelRelay.Proofs.Fault
import TunnelRelay.Ring.Datagram

/-!
# The datagram ring stays in its row

Both ends of the content lie in the circular part of the row. The headroom behind it is long enough
for a record that starts at its last cell, whatever length the record has.
-/

namespace TunnelRelay.DatagramRing

variable {r s : DatagramRing} {datagram : Bytes} {stored : Bool} {capacity : Nat}

/-- Both ends of the content lie in the circular part, and the headroom is behind it. -/
structure Sound (r : DatagramRing) : Prop where
  size_eq : r.cells.size = r.circular + recordHeader + maxDatagramLength
  head_lt : r.head < r.circular
  tail_lt : r.tail < r.circular

theorem wrap_lt (h : 0 < r.circular) (stop : Nat) : r.wrap stop < r.circular := by
  unfold wrap
  split <;> omega

theorem sound_of_ofCapacity (h : ofCapacity capacity = .ok r) : r.Sound := by
  simp only [ofCapacity, checked_bind_eq_ok, checked_pure_eq_ok] at h
  obtain ⟨cells, made, rfl⟩ := h
  exact ⟨Cells.size_of_zeroed made, Nat.succ_pos _, Nat.succ_pos _⟩

/-- A ring that a machine can provide. -/
theorem ofCapacity_isOk (h : capacity + 1 + recordHeader + maxDatagramLength < bufferLimit) :
    ∃ r, ofCapacity capacity = .ok r ∧ r.Sound := by
  refine ⟨⟨.blank (capacity + 1 + recordHeader + maxDatagramLength), capacity + 1, 0, 0, 0⟩, ?_, ?_⟩
  · rw [ofCapacity, Cells.zeroed, if_pos h]
    rfl
  · exact ⟨rfl, Nat.succ_pos _, Nat.succ_pos _⟩

theorem Sound.push_isOk (hr : r.Sound) (datagram : Bytes) :
    ∃ stored s, r.push datagram = .ok (stored, s) ∧ s.Sound := by
  obtain ⟨size, head, tail⟩ := hr
  unfold push
  split
  · next room =>
    have short : datagram.length ≤ maxDatagramLength := by
      simp only [hasRoomFor, Bool.and_eq_true, decide_eq_true_eq] at room
      exact room.1
    have written (cells : Cells) (part : Bytes) (start : Nat) (same : cells.size = r.cells.size)
        (fits : start + part.length ≤ r.cells.size) :
        ∃ cells', cells.write start part = .ok cells' ∧ cells'.size = r.cells.size :=
      ⟨_, if_pos (same ▸ fits), (Cells.size_fill ..).trans same⟩
    have length : narrow16 datagram.length = .ok datagram.length.toUInt16 :=
      narrow16_eq_ok (Nat.lt_succ_of_le short)
    obtain ⟨first, hfirst, same⟩ := written r.cells (bytesOf16 datagram.length.toUInt16) r.head rfl
      (by simp [recordHeader] at size ⊢; omega)
    obtain ⟨second, hsecond, same'⟩ := written first datagram (r.head + recordHeader) same (by omega)
    dsimp only
    rw [length, ok_bind, hfirst, ok_bind, hsecond]
    refine ⟨true, _, rfl, same'.trans size, ?_, tail⟩
    exact wrap_lt (Nat.lt_of_le_of_lt (Nat.zero_le _) head) _
  · exact ⟨false, r, rfl, size, head, tail⟩

private theorem Sound.frontLength_isOk (hr : r.Sound) : ∃ length, r.frontLength = .ok length ∧
    r.tail + recordHeader + length ≤ r.cells.size := by
  obtain ⟨size, -, tail⟩ := hr
  have header : r.cells.read r.tail (r.tail + recordHeader) = _ :=
    if_pos ⟨Nat.le_add_right _ _, by omega⟩
  refine ⟨_, by rw [frontLength, header]; rfl, ?_⟩
  have short : ∀ n : UInt16, n.toNat ≤ maxDatagramLength := fun n => Nat.le_of_lt_succ n.toNat_lt
  rw [size]
  exact Nat.add_le_add (Nat.add_le_add_right (Nat.le_of_lt tail) _) (short _)

theorem Sound.front_isOk (hr : r.Sound) : ∃ found, r.front = .ok found ∧
    (found = none ↔ r.isEmpty = true) := by
  unfold front
  split
  · next empty => exact ⟨none, rfl, by simp [empty]⟩
  · next nonempty =>
    obtain ⟨length, length_eq, fits⟩ := hr.frontLength_isOk
    have record : r.cells.read (r.tail + recordHeader) (r.tail + recordHeader + length) = _ :=
      if_pos ⟨Nat.le_add_right _ _, fits⟩
    dsimp only
    rw [length_eq, ok_bind, record]
    exact ⟨_, rfl, by simp [nonempty]⟩

/-- Removing a datagram leaves one less. -/
theorem Sound.pop_isOk (hr : r.Sound) : ∃ s, r.pop = .ok s ∧ s.Sound ∧ s.count = r.count - 1 := by
  obtain ⟨length, length_eq, -⟩ := hr.frontLength_isOk
  obtain ⟨size, head, tail⟩ := hr
  have some : 0 < r.circular := Nat.lt_of_le_of_lt (Nat.zero_le _) head
  unfold pop
  split
  · next empty =>
    refine ⟨r, rfl, ⟨size, head, tail⟩, ?_⟩
    have : r.count = 0 := by simpa [isEmpty] using empty
    omega
  · rw [length_eq]
    refine ⟨_, rfl, ?_⟩
    split
    · next single => exact ⟨⟨size, some, some⟩, by simp [single]⟩
    · exact ⟨⟨size, head, wrap_lt some _⟩, rfl⟩

end TunnelRelay.DatagramRing
