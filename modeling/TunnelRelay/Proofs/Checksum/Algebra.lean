import TunnelRelay.Proofs.Checksum

/-!
# The algebra of the checksum

Bytes may be summed piece by piece as long as no word is torn apart. Folding is a loop that turns while
a carry is left in the high half: each turn lowers the sum and keeps its residue, so the loop ends, and
what it ends with is the one 16-bit number congruent to the sum modulo 65535 that is zero only of zero.
-/

namespace TunnelRelay.Checksum

variable {sum total : UInt32} {bytes front back : Bytes}

/-! ## Gathering words -/

/-- The words of two pieces are gathered one piece after the other: the same total, or the same fault. -/
theorem sumWords_append (even : front.length % 2 = 0) :
    (sumWords sum front >>= fun first => sumWords first back) = sumWords sum (front ++ back) := by
  induction sum, front using sumWords.induct with
  | case1 sum => rfl
  | case2 sum last => simp at even
  | case3 sum hi lo rest ih =>
    have even' : rest.length % 2 = 0 := by
      simp only [List.length_cons] at even
      omega
    simp only [sumWords, List.cons_append, bind_assoc]
    congr 1
    funext first
    exact ih first even'

/-- Gathering ends well exactly when the sum has 32 bits. -/
theorem sumWords_isOk_iff :
    (∃ total, sumWords sum bytes = .ok total) ↔ sum.toNat + wordSum bytes < 0x100000000 := by
  constructor
  · rintro ⟨total, gathered⟩
    rw [← sumWords_eq_ok_iff.1 gathered]
    exact total.toNat_lt
  · intro fits
    obtain ⟨total, gathered, -⟩ := sumWords_isOk fits
    exact ⟨total, gathered⟩

/-! ## The folding loop -/

theorem high_half_eq_zero_iff : sum >>> (16 : UInt32) = 0 ↔ sum.toNat < 0x10000 := by
  rw [← UInt32.toNat_inj, UInt32.toNat_shiftRight, show (16 : UInt32).toNat % 32 = 16 by rfl,
    Nat.shiftRight_eq_div_pow, UInt32.toNat_zero]
  omega

/-- Each turn of the loop lowers the sum. -/
theorem toNat_fold_lt (carries : sum >>> (16 : UInt32) ≠ 0) : (fold sum).toNat < sum.toNat := by
  rw [Ne, high_half_eq_zero_iff] at carries
  rw [toNat_fold]
  omega

/-- What the loop leaves of a sum: it carries around the end while the high half is not empty. -/
def settle (sum : UInt32) : UInt32 :=
  if sum >>> (16 : UInt32) = 0 then sum else settle (fold sum)
termination_by sum.toNat
decreasing_by exact toNat_fold_lt ‹_›

/-- Each turn keeps the residue. -/
theorem residue_fold (sum : UInt32) : residue (fold sum).toNat = residue sum.toNat := by
  rw [toNat_fold, residue_carry]

/-- The loop ends with the residue of what it began with. -/
theorem toNat_settle (sum : UInt32) : (settle sum).toNat = residue sum.toNat := by
  induction sum using settle.induct with
  | case1 sum empty =>
    rw [settle, if_pos empty, residue_of_le]
    have := high_half_eq_zero_iff.1 empty
    omega
  | case2 sum carries ih => rw [settle, if_neg carries, ih, residue_fold]

theorem residue_le (n : Nat) : residue n ≤ 0xffff := by
  unfold residue
  split <;> omega

theorem residue_mod (n : Nat) : residue n % 0xffff = n % 0xffff := by
  unfold residue
  split <;> omega

theorem residue_eq_zero_iff (n : Nat) : residue n = 0 ↔ n = 0 := by
  unfold residue
  split <;> omega

/-- Congruence modulo 65535 and the place of zero leave one choice. -/
theorem eq_residue_iff {n r : Nat} (small : r ≤ 0xffff) :
    r = residue n ↔ r % 0xffff = n % 0xffff ∧ (r = 0 ↔ n = 0) := by
  constructor
  · rintro rfl
    exact ⟨residue_mod n, residue_eq_zero_iff n⟩
  · rintro ⟨congruent, zero⟩
    have bound := residue_le n
    have same := residue_mod n
    have zero' := residue_eq_zero_iff n
    omega

/-- Two carries are as many as the loop ever takes. -/
theorem finish_eq_settle (sum : UInt32) : finish sum = ~~~(settle sum).toUInt16 := by
  have bound := residue_le sum.toNat
  rw [← UInt16.toNat_inj, toNat_finish, UInt16.toNat_not, UInt32.toNat_toUInt16, toNat_settle]
  change _ = 0xffff - residue sum.toNat % 2 ^ 16
  rw [Nat.mod_eq_of_lt (by omega)]

/-- A checksum is the complement of one number only: the 16-bit one that is congruent to the sum modulo
65535 and is zero only of zero. -/
theorem finish_eq_complement_iff (r : UInt16) :
    finish sum = ~~~r ↔ r.toNat % 0xffff = sum.toNat % 0xffff ∧ (r = 0 ↔ sum = 0) := by
  have small := r.toNat_lt
  have bound := residue_le sum.toNat
  rw [← UInt16.toNat_inj, toNat_finish, UInt16.toNat_not, ← UInt16.toNat_inj (a := r),
    ← UInt32.toNat_inj, UInt16.toNat_zero, UInt32.toNat_zero, ← eq_residue_iff (by omega)]
  change 0xffff - _ = 0xffff - _ ↔ _
  omega

/-- A sum with its own checksum added finishes to nothing. -/
theorem add_finish (fits : sum.toNat + (finish sum).toNat < 0x100000000) :
    ∃ total, add sum (finish sum).toUInt32 = .ok total ∧ finish total = 0 := by
  have total_eq : (sum + (finish sum).toUInt32).toNat = sum.toNat + (0xffff - residue sum.toNat) := by
    rw [UInt32.toNat_add, UInt16.toNat_toUInt32, Nat.mod_eq_of_lt fits, toNat_finish]
  refine ⟨sum + (finish sum).toUInt32, if_pos fits, ?_⟩
  rw [← UInt16.toNat_inj, toNat_finish, total_eq, residue_add_complement, Nat.sub_self,
    UInt16.toNat_zero]

/-! ## The header's own checksum -/

private theorem sumWords_two_zeros : sumWords sum (bytesOf16 0) = .ok sum := by
  rw [sumWords_eq_ok_iff, wordSum_bytesOf16, UInt16.toNat_zero, Nat.add_zero]

/-- Leaving the checksum field out is counting it as zero, in a fault as well. -/
theorem ofIpv4Header_eq (complete : 12 ≤ bytes.length) :
    ofIpv4Header bytes = finish <$> sumWords 0 (overlay bytes 10 (bytesOf16 0)) := by
  have before : slice bytes 0 10 = .ok (bytes.take 10) := slice_eq_ok (Nat.zero_le _) (by omega)
  have after : slice bytes 12 bytes.length = .ok (bytes.drop 12) := by
    rw [slice_eq_ok complete (Nat.le_refl _), List.take_length]
  have ten : (bytes.take 10).length = 10 := List.length_take_of_le (by omega)
  have zeroed : sumWords 0 (overlay bytes 10 (bytesOf16 0)) =
      sumWords 0 (bytes.take 10) >>= fun first => sumWords first (bytes.drop 12) := by
    rw [overlay, length_bytesOf16, ← sumWords_append (by rw [List.length_append, ten]; rfl),
      ← sumWords_append (by rw [ten]), bind_assoc]
    simp only [sumWords_two_zeros, ok_bind]
  rw [ofIpv4Header, before, ok_bind, after, ok_bind, zeroed, ← bind_pure_comp, bind_assoc]

/-- The words of this many header bytes, two of which do not count, always have a sum of 32 bits. -/
theorem ofIpv4Header_isOk_of_length (complete : 12 ≤ bytes.length) (short : bytes.length ≤ 131074) :
    ∃ checksum, ofIpv4Header bytes = .ok checksum := by
  have front := wordSum_le (bytes.take 10)
  have back := wordSum_le (bytes.drop 12)
  simp only [wordsBound, List.length_take, List.length_drop] at front back
  obtain ⟨sum, sum_eq, -⟩ := ofIpv4Header_isOk complete (by omega)
  exact ⟨finish sum, sum_eq⟩

/-- The laws of the one's-complement sum. Pieces may be summed one after the other when no word is torn.
Folding ends for every sum, and the checksum is the complement of the one number that is congruent to
the sum modulo 65535 and is zero only of zero. A sum with its checksum added therefore finishes to
nothing, and the checksum of a header is that of the header with its checksum field zeroed. -/
theorem ones_complement_laws :
    (∀ (sum : UInt32) (front back : Bytes), front.length % 2 = 0 →
      (sumWords sum front >>= fun first => sumWords first back) = sumWords sum (front ++ back) ∧
      ((∃ total, sumWords sum (front ++ back) = .ok total) ↔
        sum.toNat + wordSum (front ++ back) < 0x100000000)) ∧
    (∀ sum : UInt32, finish sum = ~~~(settle sum).toUInt16 ∧ ∀ r : UInt16,
      finish sum = ~~~r ↔ r.toNat % 0xffff = sum.toNat % 0xffff ∧ (r = 0 ↔ sum = 0)) ∧
    (∀ sum : UInt32, sum.toNat + (finish sum).toNat < 0x100000000 →
      ∃ total, add sum (finish sum).toUInt32 = .ok total ∧ finish total = 0) ∧
    (∀ header : Bytes, 12 ≤ header.length →
      ofIpv4Header header = finish <$> sumWords 0 (overlay header 10 (bytesOf16 0)) ∧
      (header.length ≤ 131074 → ∃ checksum, ofIpv4Header header = .ok checksum)) := by
  refine ⟨?_, ?_, ?_, ?_⟩
  · intro sum front back even
    exact ⟨sumWords_append even, sumWords_isOk_iff⟩
  · intro sum
    exact ⟨finish_eq_settle sum, finish_eq_complement_iff⟩
  · intro sum fits
    exact add_finish fits
  · intro header complete
    exact ⟨ofIpv4Header_eq complete, ofIpv4Header_isOk_of_length complete⟩

/-- A header of twenty bytes whose checksum field holds anything. -/
def headerBytes : Bytes :=
  [0x45, 0, 0, 0x73, 0, 0, 0x40, 0, 0x40, 0x11, 0xab, 0xcd, 0xc0, 0xa8, 0, 1, 0xc0, 0xa8, 0, 0xc7]

/-- An odd tail behind a whole word, a sum whose first carry produces a second one, and a header. -/
theorem ones_complement_laws_carrying :
    (sumWords 0xffff [0xff, 0xff] >>= fun first => sumWords first [0, 1, 2]) = .ok 0x201ff ∧
    settle 0x1ffff = 1 ∧
    (∃ total, add 0x1ffff (finish 0x1ffff).toUInt32 = .ok total ∧ finish total = 0) ∧
    ofIpv4Header headerBytes = finish <$> sumWords 0 (overlay headerBytes 10 (bytesOf16 0)) ∧
    ofIpv4Header headerBytes = .ok 0xb861 := by
  obtain ⟨pieces, folded, added, zeroed⟩ := ones_complement_laws
  obtain ⟨gathered, -⟩ := pieces 0xffff [0xff, 0xff] [0, 1, 2] rfl
  obtain ⟨as_zeroed, -⟩ := zeroed headerBytes (by decide)
  refine ⟨?_, ?_, ?_, as_zeroed, rfl⟩
  · rw [gathered]
    rfl
  · rw [← UInt32.toNat_inj, toNat_settle]
    rfl
  · exact added 0x1ffff (by decide)

end TunnelRelay.Checksum
