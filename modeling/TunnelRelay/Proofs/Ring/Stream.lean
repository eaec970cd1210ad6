import TunnelRelay.Ring.Stream

/-!
# The stream ring is a queue of bytes

Seen through `toList` a ring is a bounded queue: `push` appends what fits, `front` shows a front part
of the content, and `drop` removes from the front.
-/

namespace TunnelRelay.StreamRing

variable {r s : StreamRing} {bytes : Bytes} {n : Nat}

/-- Both ends of the content lie in the row. -/
structure Sound (r : StreamRing) : Prop where
  head_lt : r.head < r.size
  tail_lt : r.tail < r.size

private theorem wrap_eq {i size : Nat} (h : i < 2 * size) :
    i % size = if i < size then i else i - size := by
  split
  · next h' => exact Nat.mod_eq_of_lt h'
  · next h' => rw [Nat.mod_eq_sub_mod (by omega), Nat.mod_eq_of_lt (by omega)]

theorem Sound.length_lt (hr : r.Sound) : r.length < r.size := by
  have hh := hr.head_lt
  have ht := hr.tail_lt
  unfold length
  split <;> omega

theorem Sound.length_add_remaining (hr : r.Sound) : r.length + r.remaining = r.capacity := by
  have := hr.length_lt
  unfold remaining capacity
  omega

private theorem Sound.head_eq (hr : r.Sound) : r.head = (r.tail + r.length) % r.size := by
  have hh := hr.head_lt
  have ht := hr.tail_lt
  rw [wrap_eq (by have := hr.length_lt; omega)]
  unfold length
  split <;> split <;> omega

private theorem Sound.length_eq (hr : r.Sound) (hn : n < r.size)
    (h : r.head = (r.tail + n) % r.size) : r.length = n := by
  have ht := hr.tail_lt
  rw [wrap_eq (by omega)] at h
  unfold length
  split at h <;> split <;> omega

theorem isEmpty_iff (hr : r.Sound) : r.isEmpty = true ↔ r.toList = [] := by
  have hh := hr.head_lt
  have ht := hr.tail_lt
  rw [← List.length_eq_zero_iff, length_toList, isEmpty, beq_iff_eq]
  unfold length
  split <;> omega

theorem isEmpty_of_remaining_lt (h : r.remaining < r.capacity) : r.isEmpty = false := by
  refine Bool.eq_false_iff.2 fun empty => ?_
  rw [isEmpty, beq_iff_eq] at empty
  have length : r.length = 0 := by simp [StreamRing.length, empty]
  unfold remaining at h
  omega

@[simp]
theorem getElem_toList (i : Nat) (hi : i < r.toList.length) :
    r.toList[i] = r.cells.get ((r.tail + i) % r.size) := by
  simp [toList]

private theorem push_inv (hp : r.push bytes = .ok (n, s)) :
    n = min bytes.length r.remaining ∧ s.size = r.size ∧ s.tail = r.tail ∧
      s.head = (r.head + n) % r.size ∧
      (r.head < r.size → ∀ j, s.cells.get j =
        if j < n - (r.size - r.head) then bytes.getD (r.size - r.head + j) 0
        else if r.head ≤ j ∧ j < r.head + min n (r.size - r.head) then bytes.getD (j - r.head) 0
        else r.cells.get j) := by
  have hn := taken_of_push hp
  simp only [push, bind, Except.bind, pure, Except.pure] at hp
  rw [← hn] at hp
  split at hp
  · cases hp
  next cells h₁ =>
  split at hp
  · cases hp
  next cells' h₂ =>
  cases hp
  unfold Cells.write at h₁ h₂
  split at h₁ <;> cases h₁
  next fits₁ =>
  split at h₂ <;> cases h₂
  next fits₂ =>
  refine ⟨hn, by simp [size], rfl, rfl, ?_⟩
  intro hh j
  have le : n ≤ bytes.length := by omega
  rw [Cells.get_fill fits₂, Cells.get_fill fits₁]
  simp only [List.length_drop, List.length_take, List.getD_eq_getElem?_getD, List.getElem?_drop,
    List.getElem?_take]
  grind

theorem Sound.push (hr : r.Sound) (hp : r.push bytes = .ok (n, s)) : s.Sound := by
  obtain ⟨-, hsize, htail, hhead, -⟩ := push_inv hp
  have ht := hr.tail_lt
  constructor
  · rw [hhead, hsize]
    exact Nat.mod_lt _ (by omega)
  · rw [htail, hsize]
    exact ht

theorem length_push (hr : r.Sound) (hp : r.push bytes = .ok (n, s)) :
    s.length = r.length + n := by
  obtain ⟨hn, hsize, htail, hhead, -⟩ := push_inv hp
  have hlen := hr.length_add_remaining
  have hpos := hr.tail_lt
  apply (hr.push hp).length_eq
  · rw [hsize]
    unfold capacity at hlen
    omega
  · rw [hhead, htail, hsize, hr.head_eq, Nat.mod_add_mod, Nat.add_assoc]

theorem capacity_push (hp : r.push bytes = .ok (n, s)) : s.capacity = r.capacity := by
  unfold capacity
  rw [(push_inv hp).2.1]

/-- What is pushed comes last, first bytes first. -/
theorem toList_push (hr : r.Sound) (hp : r.push bytes = .ok (n, s)) :
    s.toList = r.toList ++ bytes.take n := by
  have hlength := length_push hr hp
  have hcapacity := hr.length_add_remaining
  have hh := hr.head_lt
  have ht := hr.tail_lt
  obtain ⟨hn, hsize, htail, -, hget⟩ := push_inv hp
  have hhead := hr.head_eq
  rw [wrap_eq (by have := hr.length_lt; omega)] at hhead
  unfold capacity at hcapacity
  apply List.ext_getElem
  · simp only [length_toList, List.length_append, List.length_take]
    omega
  · intro i hi _
    rw [length_toList] at hi
    rw [getElem_toList, htail, hsize, hget hh, wrap_eq (by omega), List.getElem_append]
    simp only [length_toList, getElem_toList, List.getElem_take, List.getD_eq_getElem?_getD]
    have hi' : (r.tail + i) % r.size = if r.tail + i < r.size then r.tail + i
        else r.tail + i - r.size := wrap_eq (by omega)
    by_cases old : i < r.length
    · rw [dif_pos old, hi', if_neg (by split <;> split at hhead <;> omega),
        if_neg (by split <;> split at hhead <;> omega)]
    · have hb : i - r.length < bytes.length := by omega
      rw [dif_neg old]
      by_cases wrapped : r.head + (i - r.length) < r.size
      · rw [if_neg (by split <;> split at hhead <;> omega),
          if_pos (by split <;> split at hhead <;> omega)]
        have index : (if r.tail + i < r.size then r.tail + i else r.tail + i - r.size) - r.head =
            i - r.length := by
          split <;> split at hhead <;> omega
        rw [index, List.getElem?_eq_getElem hb]
        rfl
      · rw [if_pos (by split <;> split at hhead <;> omega)]
        have index : r.size - r.head + (if r.tail + i < r.size then r.tail + i
            else r.tail + i - r.size) = i - r.length := by
          split <;> split at hhead <;> omega
        rw [index, List.getElem?_eq_getElem hb]
        rfl

/-- What leaves first, which is the whole content unless that runs across the end of the row. -/
theorem front_eq (hr : r.Sound) (he : r.isEmpty = false) (hf : r.front = .ok bytes) :
    bytes = r.toList.take bytes.length ∧ 0 < bytes.length ∧ bytes.length ≤ r.length := by
  have hh := hr.head_lt
  have ht := hr.tail_lt
  have hne : r.head ≠ r.tail := by simpa [isEmpty] using he
  obtain ⟨stop, hstop⟩ : ∃ stop, stop = if r.tail < r.head then r.head else r.size := ⟨_, rfl⟩
  have hlen : stop - r.tail ≤ r.length ∧ r.tail < stop ∧ stop ≤ r.size := by
    unfold length
    split at hstop <;> split <;> omega
  unfold front Cells.read at hf
  rw [← hstop] at hf
  split at hf <;> cases hf
  simp only [List.length_map, List.length_range']
  refine ⟨?_, by omega, hlen.1⟩
  apply List.ext_getElem
  · simp only [List.length_map, List.length_range', List.length_take, length_toList]
    omega
  · intro i hi _
    simp only [List.length_map, List.length_range'] at hi
    rw [List.getElem_take, getElem_toList, Nat.mod_eq_of_lt (by omega)]
    simp

theorem Sound.drop (hr : r.Sound) : (r.drop n).Sound where
  head_lt := hr.head_lt
  tail_lt := Nat.mod_lt _ (Nat.lt_of_le_of_lt (Nat.zero_le _) hr.head_lt)

theorem length_drop (hr : r.Sound) (hn : n ≤ r.length) : (r.drop n).length = r.length - n := by
  have hlen := hr.length_lt
  apply hr.drop.length_eq
  · change r.length - n < r.size
    omega
  · change r.head = ((r.tail + n) % r.size + (r.length - n)) % r.size
    rw [Nat.mod_add_mod, Nat.add_assoc, Nat.add_sub_cancel' hn, ← hr.head_eq]

/-- What is dropped is the oldest part of the content. -/
theorem toList_drop (hr : r.Sound) (hn : n ≤ r.length) : (r.drop n).toList = r.toList.drop n := by
  apply List.ext_getElem
  · simp only [length_toList, List.length_drop, length_drop hr hn]
  · intro i _ _
    rw [getElem_toList, List.getElem_drop, getElem_toList]
    change r.cells.get (((r.tail + n) % r.size + i) % r.size) = _
    rw [Nat.mod_add_mod, Nat.add_assoc]

theorem sound_of_ofCapacity {n : Nat} (h : ofCapacity n = .ok r) : r.Sound := by
  unfold ofCapacity at h
  cases h' : Cells.zeroed (n + 1) with
  | error fault => simp [h', bind, Except.bind] at h
  | ok cells =>
    simp only [h', bind, Except.bind, pure, Except.pure, Except.ok.injEq] at h
    subst h
    have hsize : cells.size = n + 1 := Cells.size_of_zeroed h'
    constructor <;> simp [size, hsize]

/-- A ring that a machine can provide. -/
theorem ofCapacity_isOk {capacity : Nat} (h : capacity + 1 < bufferLimit) :
    ∃ r, ofCapacity capacity = .ok r := by
  refine ⟨⟨.blank (capacity + 1), 0, 0⟩, ?_⟩
  rw [ofCapacity, Cells.zeroed, if_pos h]
  rfl

/-- As much as there is room for can always be pushed. -/
theorem Sound.push_isOk (hr : r.Sound) (bytes : Bytes) :
    ∃ s, r.push bytes = .ok (min bytes.length r.remaining, s) := by
  have hh := hr.head_lt
  have hlen := hr.length_add_remaining
  unfold capacity at hlen
  unfold size at hh hlen
  have written (cells : Cells) (part : Bytes) (start : Nat) (same : cells.size = r.cells.size)
      (fits : start + part.length ≤ r.cells.size) :
      ∃ cells', cells.write start part = .ok cells' ∧ cells'.size = r.cells.size :=
    ⟨_, if_pos (same ▸ fits), (Cells.size_fill ..).trans same⟩
  have cut : min bytes.length r.remaining ≤ bytes.length := Nat.min_le_left ..
  generalize hn : min bytes.length r.remaining = n at cut
  obtain ⟨first, hfirst, same⟩ := written r.cells (bytes.take (min n (r.size - r.head))) r.head rfl
    (by simp [size]; omega)
  obtain ⟨second, hsecond, -⟩ := written first ((bytes.take n).drop (min n (r.size - r.head))) 0 same
    (by simp [size]; omega)
  refine ⟨⟨second, (r.head + n) % r.size, r.tail⟩, ?_⟩
  unfold StreamRing.push
  dsimp only
  rw [hn, hfirst]
  simp only [bind, Except.bind, hsecond]
  rfl

/-- The oldest bytes of a ring that is not empty can be seen. -/
theorem Sound.front_isOk (hr : r.Sound) : ∃ bytes, r.front = .ok bytes := by
  have hh := hr.head_lt
  have ht := hr.tail_lt
  unfold front Cells.read
  rw [if_pos]
  · exact ⟨_, rfl⟩
  · unfold size at hh ht ⊢
    split <;> omega

@[simp]
theorem capacity_drop (r : StreamRing) (n : Nat) : (r.drop n).capacity = r.capacity := rfl

end TunnelRelay.StreamRing
