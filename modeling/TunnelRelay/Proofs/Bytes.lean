import TunnelRelay.Bytes

/-!
# Numbers on the wire

Reading gives back the number that was written, and writing leaves everything beside it as it was.
-/

namespace TunnelRelay

theorem toNat_word16 (hi lo : UInt8) : (word16 hi lo).toNat = hi.toNat * 256 + lo.toNat := by
  have hh := hi.toNat_lt
  have hl := lo.toNat_lt
  simp only [word16, UInt16.toNat_or, UInt16.toNat_shiftLeft, UInt8.toNat_toUInt16]
  rw [show (8 : UInt16).toNat % 16 = 8 by rfl, Nat.shiftLeft_eq, Nat.mod_eq_of_lt (by omega),
    ← Nat.shiftLeft_eq, ← Nat.shiftLeft_add_eq_or_of_lt hl]

@[simp]
theorem word16_halves (n : UInt16) : word16 (n >>> 8).toUInt8 n.toUInt8 = n := by
  apply UInt16.toNat_inj.1
  have := n.toNat_lt
  simp [toNat_word16, Nat.shiftRight_eq_div_pow]
  omega

private theorem word32_halves (n : UInt32) :
    (n >>> 16).toUInt16.toUInt32 <<< 16 ||| n.toUInt16.toUInt32 = n := by
  apply UInt32.toNat_inj.1
  have := n.toNat_lt
  simp only [UInt32.toNat_or, UInt32.toNat_shiftLeft, UInt16.toNat_toUInt32,
    UInt32.toNat_toUInt16, UInt32.toNat_shiftRight]
  rw [show (16 : UInt32).toNat % 32 = 16 by rfl, Nat.shiftLeft_eq, Nat.shiftRight_eq_div_pow,
    Nat.mod_eq_of_lt (by omega), ← Nat.shiftLeft_eq,
    ← Nat.shiftLeft_add_eq_or_of_lt (by omega), Nat.shiftLeft_eq]
  omega

@[simp]
theorem word32_quarters (n : UInt32) :
    (word16 ((n >>> 16).toUInt16 >>> 8).toUInt8 (n >>> 16).toUInt8).toUInt32 <<< 16 |||
      (word16 (n.toUInt16 >>> 8).toUInt8 n.toUInt8).toUInt32 = n := by
  have high := word16_halves (n >>> 16).toUInt16
  have low := word16_halves n.toUInt16
  rw [UInt32.toUInt8_toUInt16] at high low
  rw [high, low, word32_halves]

/-- A word is written as the two bytes that it was read from. -/
theorem bytesOf16_word16 (hi lo : UInt8) : bytesOf16 (word16 hi lo) = [hi, lo] := by
  have hh := hi.toNat_lt
  have hl := lo.toNat_lt
  have high : (word16 hi lo >>> 8).toUInt8 = hi := by
    apply UInt8.toNat_inj.1
    rw [UInt16.toNat_toUInt8, UInt16.toNat_shiftRight, toNat_word16, Nat.shiftRight_eq_div_pow]
    change (_ * 256 + _) / 256 % 256 = _
    omega
  have low : (word16 hi lo).toUInt8 = lo := by
    apply UInt8.toNat_inj.1
    rw [UInt16.toNat_toUInt8, toNat_word16]
    omega
  rw [bytesOf16, high, low]

/-- A number of four bytes is written as the two words that it was read from. -/
theorem bytesOf32_halves (high low : UInt16) :
    bytesOf32 (high.toUInt32 <<< 16 ||| low.toUInt32) = bytesOf16 high ++ bytesOf16 low := by
  have hh := high.toNat_lt
  have hl := low.toNat_lt
  have same : (high.toUInt32 <<< 16 ||| low.toUInt32).toNat = high.toNat * 65536 + low.toNat := by
    simp only [UInt32.toNat_or, UInt32.toNat_shiftLeft, UInt16.toNat_toUInt32]
    rw [show (16 : UInt32).toNat % 32 = 16 by rfl, Nat.shiftLeft_eq, Nat.mod_eq_of_lt (by omega),
      ← Nat.shiftLeft_eq, ← Nat.shiftLeft_add_eq_or_of_lt hl]
  have upper : ((high.toUInt32 <<< 16 ||| low.toUInt32) >>> 16).toUInt16 = high := by
    apply UInt16.toNat_inj.1
    rw [UInt32.toNat_toUInt16, UInt32.toNat_shiftRight, same, Nat.shiftRight_eq_div_pow]
    change (_ * 65536 + _) / 65536 % 65536 = _
    omega
  have lower : (high.toUInt32 <<< 16 ||| low.toUInt32).toUInt16 = low := by
    apply UInt16.toNat_inj.1
    rw [UInt32.toNat_toUInt16, same]
    omega
  rw [bytesOf32, upper, lower]

theorem bytesOf16_word16At {bytes : Bytes} {offset : Nat} (fits : offset + 2 ≤ bytes.length) :
    bytesOf16 (word16At bytes offset) = (bytes.drop offset).take 2 := by
  rw [word16At, bytesOf16_word16, List.drop_eq_getElem_cons (by omega),
    List.drop_eq_getElem_cons (by omega), List.getD_eq_getElem?_getD, List.getD_eq_getElem?_getD,
    List.getElem?_eq_getElem (by omega), List.getElem?_eq_getElem (by omega)]
  rfl

theorem bytesOf32_word32At {bytes : Bytes} {offset : Nat} (fits : offset + 4 ≤ bytes.length) :
    bytesOf32 (word32At bytes offset) = (bytes.drop offset).take 4 := by
  rw [word32At, bytesOf32_halves, bytesOf16_word16At (by omega), bytesOf16_word16At (by omega),
    ← List.drop_drop, ← List.take_add]

theorem getElem?_overlay {bytes new : Bytes} {offset : Nat}
    (h : offset + new.length ≤ bytes.length) (i : Nat) :
    (overlay bytes offset new)[i]? =
      if offset ≤ i ∧ i < offset + new.length then new[i - offset]? else bytes[i]? := by
  simp only [overlay, List.getElem?_append, List.length_append, List.length_take,
    List.getElem?_take, List.getElem?_drop]
  rw [Nat.min_eq_left (by omega)]
  split
  · next hi =>
    split
    · next hi' => rw [if_neg (by omega)]
    · next hi' => rw [if_pos (by omega)]
  · next hi =>
    rw [if_neg (by omega)]
    congr 1
    omega

/-- What is written last stays. -/
theorem overlay_overlay {bytes first second : Bytes} {offset : Nat}
    (same : second.length = first.length) (fits : offset + first.length ≤ bytes.length) :
    overlay (overlay bytes offset first) offset second = overlay bytes offset second := by
  have length : (bytes.take offset).length = offset := List.length_take_of_le (by omega)
  have before : (overlay bytes offset first).take offset = bytes.take offset := by
    rw [overlay, List.append_assoc, List.take_left' length]
  have behind : (overlay bytes offset first).drop (offset + first.length) =
      bytes.drop (offset + first.length) := by
    rw [overlay, List.drop_left' (by rw [List.length_append, length])]
  rw [overlay, same, before, behind, overlay, same]

/-- Writing inside the middle part leaves the parts around it alone. -/
theorem overlay_append_middle {front part back new : Bytes} {offset : Nat}
    (fits : offset + new.length ≤ part.length) :
    overlay (front ++ part ++ back) (front.length + offset) new =
      front ++ overlay part offset new ++ back := by
  simp only [overlay, List.append_assoc, List.take_length_add_append]
  rw [List.take_append_of_le_length (by omega), Nat.add_assoc, List.drop_length_add_append,
    List.drop_append_of_le_length fits]

theorem eq_take_of_slice {bytes part : Bytes} {stop : Nat} (h : slice bytes 0 stop = .ok part) :
    part = bytes.take stop := by
  unfold slice at h
  split at h <;> cases h
  rfl

theorem slice_append_right (front part back : Bytes) {start stop : Nat}
    (hs : start = front.length) (ht : stop = start + part.length) :
    slice (front ++ part ++ back) start stop = .ok part := by
  subst hs ht
  rw [slice_eq_ok (by omega) (by simp), ← List.length_append, List.take_left, List.drop_left]

end TunnelRelay
