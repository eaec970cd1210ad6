import TunnelRelay.Proofs.Bytes
import TunnelRelay.Proofs.Ring.Datagram

/-!
# The datagram ring is a queue of datagrams

Seen through `toList` a ring is a bounded queue of datagrams, empty ones included. The records lie one
behind the other in the row. Once a record has run into the headroom the next one starts at the front
of the row again, and the free room is what lies between the two runs of records.
-/

namespace TunnelRelay

namespace Cells

/-- The cells from `start` on hold the datagram behind its length. -/
structure HoldsRecord (cells : Cells) (start : Nat) (datagram : Bytes) : Prop where
  length_eq : (word16 (cells.get start) (cells.get (start + 1))).toNat = datagram.length
  content_eq : (List.range' (start + recordHeader) datagram.length).map cells.get = datagram

variable {cells cells' cells'' : Cells} {start : Nat} {datagram : Bytes} {length : UInt16}

theorem HoldsRecord.congr (h : cells.HoldsRecord start datagram)
    (same : ∀ i, start ≤ i → i < start + recordHeader + datagram.length → cells'.get i = cells.get i) :
    cells'.HoldsRecord start datagram where
  length_eq := by
    rw [same start (Nat.le_refl _) (by simp only [recordHeader]; omega),
      same (start + 1) (Nat.le_succ _) (by simp only [recordHeader]; omega)]
    exact h.length_eq
  content_eq := by
    rw [← h.content_eq]
    simp only [List.length_map, List.length_range']
    refine List.map_congr_left fun i mem => same i ?_ ?_
    · have := (List.mem_range'_1.1 mem).1
      omega
    · exact (List.mem_range'_1.1 mem).2

theorem get_write {bytes : Bytes} (h : cells.write start bytes = .ok cells') (i : Nat) :
    cells'.get i =
      if start ≤ i ∧ i < start + bytes.length then bytes.getD (i - start) 0 else cells.get i := by
  unfold write at h
  split at h <;> cases h
  next fits => exact get_fill fits i

/-- A record is written behind its length, and nothing beside it. -/
theorem holdsRecord_of_write (narrowed : narrow16 datagram.length = .ok length)
    (first : cells.write start (bytesOf16 length) = .ok cells')
    (second : cells'.write (start + recordHeader) datagram = .ok cells'') :
    cells''.HoldsRecord start datagram ∧
      ∀ i, i < start ∨ start + recordHeader + datagram.length ≤ i → cells''.get i = cells.get i := by
  have get (i : Nat) : cells''.get i =
      if start + recordHeader ≤ i ∧ i < start + recordHeader + datagram.length then
        datagram.getD (i - (start + recordHeader)) 0
      else if start ≤ i ∧ i < start + recordHeader then (bytesOf16 length).getD (i - start) 0
      else cells.get i := by
    rw [get_write second, get_write first]
    rfl
  refine ⟨⟨?_, ?_⟩, ?_⟩
  · have high : cells''.get start = (length >>> 8).toUInt8 := by
      rw [get, if_neg (by simp only [recordHeader]; omega),
        if_pos (by simp only [recordHeader]; omega), Nat.sub_self]
      rfl
    have low : cells''.get (start + 1) = length.toUInt8 := by
      rw [get, if_neg (by simp only [recordHeader]; omega),
        if_pos (by simp only [recordHeader]; omega), Nat.add_sub_cancel_left]
      rfl
    rw [high, low, word16_halves]
    exact narrow16_eq_ok_iff.1 narrowed
  · refine List.ext_getElem (by simp) fun i hi hi' => ?_
    rw [List.getElem_map, List.getElem_range', Nat.one_mul, get, if_pos (by omega),
      Nat.add_sub_cancel_left, List.getD_eq_getElem?_getD, List.getElem?_eq_getElem hi']
    rfl
  · intro i apart
    rw [get, if_neg (by omega), if_neg (by omega)]

end Cells

namespace DatagramRing

variable {r s : DatagramRing} {cells : Cells} {datagram : Bytes} {content rest : List Bytes}
  {start stop circular : Nat} {stored : Bool}

/-- The datagrams lie in the row one behind the other from `start` to `stop`, each of them starting in
the circular part. -/
inductive Lies (cells : Cells) (circular : Nat) : Nat → List Bytes → Nat → Prop where
  | nil (stop : Nat) : Lies cells circular stop [] stop
  | cons {start stop : Nat} {datagram : Bytes} {rest : List Bytes} (inside : start < circular)
      (record : cells.HoldsRecord start datagram)
      (behind : Lies cells circular (start + recordHeader + datagram.length) rest stop) :
      Lies cells circular start (datagram :: rest) stop

namespace Lies

theorem le (h : Lies cells circular start content stop) : start ≤ stop := by
  induction h with
  | nil => exact Nat.le_refl _
  | cons => omega

theorem lt_of_ne_nil (h : Lies cells circular start content stop) (some : content ≠ []) :
    start < stop ∧ start < circular := by
  cases h with
  | nil => exact absurd rfl some
  | cons inside _ behind =>
    have := behind.le
    simp only [recordHeader] at this
    exact ⟨by omega, inside⟩

/-- Cells outside the run of records do not matter to it. -/
theorem congr {cells' : Cells} (h : Lies cells circular start content stop)
    (same : ∀ i, start ≤ i → i < stop → cells'.get i = cells.get i) :
    Lies cells' circular start content stop := by
  induction h with
  | nil => exact .nil _
  | @cons start stop datagram rest inside record behind ih =>
    have := behind.le
    refine .cons inside (record.congr fun i hi hi' => same i hi (by omega)) (ih fun i hi hi' => ?_)
    exact same i (by omega) hi'

theorem concat (h : Lies cells circular start content stop) (inside : stop < circular)
    (record : cells.HoldsRecord stop datagram) :
    Lies cells circular start (content ++ [datagram]) (stop + recordHeader + datagram.length) := by
  induction h with
  | nil => exact .cons inside record (.nil _)
  | cons inside' record' _ ih => exact .cons inside' record' (ih inside record)

/-- Walking over the records finds the datagrams, and then goes on where the last one ends. -/
theorem recordsFrom_eq (h : Lies r.cells r.circular start content stop) (some : content ≠ [])
    (more : Nat) :
    r.recordsFrom (content.length + more) start = content ++ r.recordsFrom more (r.wrap stop) := by
  induction h with
  | nil => exact absurd rfl some
  | @cons start stop datagram rest inside record behind ih =>
    rw [List.length_cons, Nat.add_right_comm, recordsFrom]
    simp only [record.length_eq, record.content_eq, List.cons_append, List.cons.injEq, true_and]
    cases rest with
    | nil =>
      cases behind
      rw [List.length_nil, Nat.zero_add, List.nil_append]
    | cons next rest =>
      have inside' := (behind.lt_of_ne_nil (List.cons_ne_nil _ _)).2
      rw [wrap, if_neg (Nat.not_le_of_lt inside')]
      exact ih (List.cons_ne_nil _ _)

end Lies

/-- Where the content lies: in one run of records, or in two, the older of which has run out of the
circular part. -/
inductive Arranged (r : DatagramRing) : List Bytes → Prop where
  | straight {content : List Bytes} (lies : Lies r.cells r.circular r.tail content r.head) :
      Arranged r content
  | wrapped {older newer : List Bytes} {stop : Nat}
      (lies : Lies r.cells r.circular r.tail older stop) (beyond : r.circular ≤ stop)
      (lies' : Lies r.cells r.circular 0 newer r.head) (apart : r.head ≤ r.tail) :
      Arranged r (older ++ newer)

/-- The ring holds the datagrams, oldest one first. -/
structure Holds (r : DatagramRing) (content : List Bytes) : Prop where
  sound : r.Sound
  count_eq : r.count = content.length
  arranged : r.Arranged content

theorem Holds.toList_eq (h : r.Holds content) : r.toList = content := by
  rw [toList, h.count_eq]
  cases h.arranged with
  | straight lies =>
    cases content with
    | nil => rfl
    | cons first rest => simpa [recordsFrom] using lies.recordsFrom_eq (List.cons_ne_nil _ _) 0
  | @wrapped older newer stop lies beyond lies' apart =>
    have first : older ≠ [] := by
      rintro rfl
      cases lies
      exact absurd h.sound.tail_lt (Nat.not_lt_of_le beyond)
    rw [List.length_append, lies.recordsFrom_eq first, wrap, if_pos beyond]
    cases newer with
    | nil => rfl
    | cons next rest => simpa [recordsFrom] using lies'.recordsFrom_eq (List.cons_ne_nil _ _) 0

theorem holds_of_ofCapacity {capacity : Nat} (h : ofCapacity capacity = .ok r) : r.Holds [] := by
  have affordable : capacity + 1 + recordHeader + maxDatagramLength < bufferLimit := by
    simp only [ofCapacity, checked_bind_eq_ok] at h
    obtain ⟨cells, zeroed, -⟩ := h
    unfold Cells.zeroed at zeroed
    split at zeroed
    · assumption
    · cases zeroed
  obtain ⟨made, same, sound⟩ := ofCapacity_isOk affordable
  obtain rfl : made = r := Except.ok.inj (same.symm.trans h)
  simp only [ofCapacity, checked_bind_eq_ok, checked_pure_eq_ok] at h
  obtain ⟨cells, -, rfl⟩ := h
  exact ⟨sound, rfl, .straight (.nil _)⟩

theorem Holds.isEmpty_eq (h : r.Holds content) : r.isEmpty = content.isEmpty := by
  rw [isEmpty, h.count_eq]
  cases content <;> rfl

/-- A datagram is stored exactly if there is room for it. -/
theorem stored_of_push (pushed : r.push datagram = .ok (stored, s)) :
    stored = r.hasRoomFor datagram.length := by
  unfold DatagramRing.push at pushed
  split at pushed
  · next room =>
    simp only [checked_bind_eq_ok, checked_pure_eq_ok] at pushed
    obtain ⟨_, -, _, -, _, -, ⟨⟩⟩ := pushed
    exact room.symm
  · next full =>
    cases pushed
    simpa using full

/-- A datagram that there is no room for leaves the ring as it is. -/
theorem eq_of_push (pushed : r.push datagram = .ok (false, s)) : s = r := by
  have full := stored_of_push pushed
  rw [DatagramRing.push, if_neg (by simp [← full])] at pushed
  cases pushed
  rfl

private theorem Holds.isWrapped_eq {older newer : List Bytes} (h : r.Holds (older ++ newer))
    (lies : Lies r.cells r.circular r.tail older stop) (beyond : r.circular ≤ stop)
    (apart : r.head ≤ r.tail) : r.isWrapped = true := by
  have some : 0 < r.count := by
    rw [h.count_eq, List.length_append]
    cases older with
    | nil =>
      cases lies
      exact absurd h.sound.tail_lt (Nat.not_lt_of_le beyond)
    | cons => exact Nat.lt_add_right _ (Nat.succ_pos _)
  simp [isWrapped, some, apart]

-- A record that is written at the head comes last, whether or not it runs into the headroom.
private theorem Holds.arranged_push (h : r.Holds content) (count : Nat)
    (room : r.isWrapped = false ∨ r.head + recordHeader + datagram.length ≤ r.tail)
    (record : cells.HoldsRecord r.head datagram)
    (beside : ∀ i, i < r.head ∨ r.head + recordHeader + datagram.length ≤ i →
      cells.get i = r.cells.get i) :
    Arranged { r with cells, head := r.wrap (r.head + recordHeader + datagram.length), count }
      (content ++ [datagram]) := by
  have head := h.sound.head_lt
  cases h.arranged with
  | straight lies =>
    have lies' := (lies.congr fun i _ hi => beside i (.inl hi)).concat head record
    by_cases beyond : r.circular ≤ r.head + recordHeader + datagram.length
    · have front : r.wrap (r.head + recordHeader + datagram.length) = 0 := if_pos beyond
      rw [← List.append_nil (content ++ [datagram]), front]
      exact .wrapped lies' beyond (.nil _) (Nat.zero_le _)
    · have front : r.wrap (r.head + recordHeader + datagram.length) = _ := if_neg beyond
      rw [front]
      exact .straight lies'
  | @wrapped older newer stop lies beyond lies' apart =>
    have fits := room.resolve_left (by simp [h.isWrapped_eq lies beyond apart])
    have inside : ¬r.circular ≤ r.head + recordHeader + datagram.length := by
      have := h.sound.tail_lt
      omega
    have front : r.wrap (r.head + recordHeader + datagram.length) = _ := if_neg inside
    rw [List.append_assoc, front]
    refine .wrapped (lies.congr fun i hi _ => beside i (.inr (by omega))) beyond ?_ fits
    exact (lies'.congr fun i _ hi => beside i (.inl hi)).concat head record

/-- A datagram that is stored comes last. -/
theorem Holds.push (h : r.Holds content) (pushed : r.push datagram = .ok (stored, s)) :
    s.Holds (content ++ if stored then [datagram] else []) := by
  obtain ⟨_, _, pushed', sound⟩ := h.sound.push_isOk datagram
  obtain ⟨rfl, rfl⟩ := Prod.mk.inj (Except.ok.inj (pushed'.symm.trans pushed))
  unfold DatagramRing.push at pushed
  split at pushed
  · next room =>
    simp only [checked_bind_eq_ok, checked_pure_eq_ok] at pushed
    obtain ⟨length, narrowed, first, written, second, written', ⟨⟩⟩ := pushed
    obtain ⟨record, beside⟩ := Cells.holdsRecord_of_write narrowed written written'
    simp only [hasRoomFor, Bool.and_eq_true, Bool.or_eq_true, Bool.not_eq_true',
      decide_eq_true_eq] at room
    refine ⟨sound, by simp [h.count_eq], ?_⟩
    exact h.arranged_push (r.count + 1) room.2 record beside
  · cases pushed
    simpa using h

private theorem Holds.first (h : r.Holds (datagram :: rest)) :
    r.cells.HoldsRecord r.tail datagram := by
  generalize content_eq : datagram :: rest = content at h
  cases h.arranged with
  | straight lies =>
    subst content_eq
    cases lies with
    | cons _ record _ => exact record
  | wrapped lies beyond _ _ =>
    cases lies with
    | nil => exact absurd h.sound.tail_lt (Nat.not_lt_of_le beyond)
    | cons _ record _ =>
      cases content_eq
      exact record

private theorem frontLength_eq {length : Nat} (record : r.cells.HoldsRecord r.tail datagram)
    (found : r.frontLength = .ok length) : length = datagram.length := by
  simp only [frontLength, checked_bind_eq_ok, checked_pure_eq_ok] at found
  obtain ⟨header, read, rfl⟩ := found
  unfold Cells.read at read
  split at read <;> cases read
  rw [Nat.add_sub_cancel_left]
  exact record.length_eq

/-- What leaves first is the oldest datagram. -/
theorem Holds.front_eq {found : Option Bytes} (h : r.Holds content) (read : r.front = .ok found) :
    found = content.head? := by
  unfold front at read
  cases content with
  | nil =>
    rw [if_pos (by rw [h.isEmpty_eq]; rfl)] at read
    exact (Except.ok.inj read).symm
  | cons datagram rest =>
    rw [if_neg (by simp [h.isEmpty_eq])] at read
    simp only [checked_bind_eq_ok, checked_map_eq_ok] at read
    obtain ⟨length, counted, bytes, read, rfl⟩ := read
    obtain rfl := frontLength_eq h.first counted
    unfold Cells.read at read
    split at read <;> cases read
    rw [Nat.add_sub_cancel_left, h.first.content_eq]
    rfl

private theorem Arranged.pop (arranged : r.Arranged (datagram :: rest)) (some : rest ≠ [])
    (tail : r.tail < r.circular) (count : Nat) :
    Arranged { r with tail := r.wrap (r.tail + recordHeader + datagram.length), count } rest := by
  generalize content_eq : datagram :: rest = content at arranged
  cases arranged with
  | straight lies =>
    subst content_eq
    cases lies with
    | cons _ _ behind =>
      have inside := (behind.lt_of_ne_nil some).2
      refine .straight ?_
      rw [wrap, if_neg (Nat.not_le_of_lt inside)]
      exact behind
  | @wrapped older newer stop lies beyond lies' apart =>
    cases lies with
    | nil => exact absurd tail (Nat.not_lt_of_le beyond)
    | @cons _ _ first older _ _ behind =>
      rw [List.cons_append] at content_eq
      obtain ⟨rfl, rfl⟩ := List.cons.inj content_eq
      cases older with
      | nil =>
        -- The last record of the older run is gone, so that one run is left.
        cases behind
        refine .straight ?_
        rw [wrap, if_pos beyond]
        exact lies'
      | cons next older =>
        have inside := (behind.lt_of_ne_nil (List.cons_ne_nil _ _)).2
        have same : r.wrap (r.tail + recordHeader + datagram.length) = _ :=
          if_neg (Nat.not_le_of_lt inside)
        refine .wrapped ?_ beyond lies' ?_
        · rw [same]
          exact behind
        · rw [same]
          exact Nat.le_trans apart (by simp only [Nat.add_assoc, Nat.le_add_right])

/-- What is removed is the oldest datagram. -/
theorem Holds.pop (h : r.Holds content) (popped : r.pop = .ok s) : s.Holds content.tail := by
  obtain ⟨_, popped', sound, count⟩ := h.sound.pop_isOk
  obtain rfl := Except.ok.inj (popped'.symm.trans popped)
  refine ⟨sound, by rw [count, h.count_eq, List.length_tail], ?_⟩
  unfold DatagramRing.pop at popped
  cases content with
  | nil =>
    rw [if_pos (by rw [h.isEmpty_eq]; rfl)] at popped
    cases popped
    exact h.arranged
  | cons datagram rest =>
    rw [if_neg (by simp [h.isEmpty_eq])] at popped
    simp only [checked_bind_eq_ok, checked_pure_eq_ok] at popped
    obtain ⟨length, counted, rfl⟩ := popped
    obtain rfl := frontLength_eq h.first counted
    rw [List.tail_cons]
    split
    · next single =>
      have none : rest = [] := by simpa [h.count_eq] using single
      rw [none]
      exact .straight (.nil _)
    · next several =>
      have some : rest ≠ [] := by
        rintro rfl
        exact several (by simp [h.count_eq])
      exact h.arranged.pop some h.sound.tail_lt _

end DatagramRing

end TunnelRelay
