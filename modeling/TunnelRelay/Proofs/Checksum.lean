import TunnelRelay.Checksum
import TunnelRelay.Proofs.Bytes
import TunnelRelay.Proofs.Fault

/-!
# The one's-complement sum

Folding keeps a sum modulo 65535, and keeps zero apart from the other multiples of 65535. So the
complement of what bytes add up to, put among them as one word more, makes them verify.
-/

namespace TunnelRelay.Checksum

variable {sum total : UInt32} {bytes front back : Bytes}

def wordSum : Bytes → Nat
  | [] => 0
  | [last] => last.toNat * 256
  | hi :: lo :: rest => hi.toNat * 256 + lo.toNat + wordSum rest

/-- The most that the words of `n` bytes add up to. -/
def wordsBound (n : Nat) : Nat := (n + 1) / 2 * 0xffff

theorem wordSum_le (bytes : Bytes) : wordSum bytes ≤ wordsBound bytes.length := by
  induction bytes using wordSum.induct with
  | case1 => simp [wordSum]
  | case2 last =>
    have := last.toNat_lt
    simp [wordSum, wordsBound]
    omega
  | case3 hi lo rest ih =>
    have := hi.toNat_lt
    have := lo.toNat_lt
    simp only [wordSum, wordsBound, List.length_cons] at ih ⊢
    omega

theorem wordSum_append (even : front.length % 2 = 0) :
    wordSum (front ++ back) = wordSum front + wordSum back := by
  induction front using wordSum.induct with
  | case1 => simp [wordSum]
  | case2 last => simp at even
  | case3 hi lo rest ih =>
    simp only [List.length_cons] at even
    simp only [List.cons_append, wordSum, ih (by omega)]
    omega

@[simp]
theorem wordSum_bytesOf16 (n : UInt16) : wordSum (bytesOf16 n) = n.toNat := by
  have same := congrArg UInt16.toNat (word16_halves n)
  rw [toNat_word16] at same
  simpa [wordSum, bytesOf16] using same

private theorem add_eq_ok_iff {word : UInt32} :
    add sum word = .ok total ↔ total.toNat = sum.toNat + word.toNat := by
  have small := total.toNat_lt
  unfold add
  split
  · next fits =>
    rw [Except.ok.injEq, ← UInt32.toNat_inj, UInt32.toNat_add, Nat.mod_eq_of_lt fits, eq_comm]
  · next large =>
    simp only [reduceCtorEq, false_iff]
    omega

/-- The accumulator gathers exactly what the words add up to, as long as that has 32 bits. -/
theorem sumWords_eq_ok_iff :
    sumWords sum bytes = .ok total ↔ total.toNat = sum.toNat + wordSum bytes := by
  induction sum, bytes using sumWords.induct with
  | case1 sum => simp [sumWords, wordSum, ← UInt32.toNat_inj, eq_comm]
  | case2 sum last => simp [sumWords, wordSum, add_eq_ok_iff, toNat_word16]
  | case3 sum hi lo rest ih =>
    have small := total.toNat_lt
    simp only [sumWords, checked_bind_eq_ok, add_eq_ok_iff, ih, wordSum, UInt16.toNat_toUInt32,
      toNat_word16]
    constructor
    · rintro ⟨first, first_eq, total_eq⟩
      omega
    · intro total_eq
      refine ⟨UInt32.ofNat (sum.toNat + (hi.toNat * 256 + lo.toNat)), ?_⟩
      have first_eq := UInt32.toNat_ofNat_of_lt'
        (show sum.toNat + (hi.toNat * 256 + lo.toNat) < UInt32.size by
          change _ < 2 ^ 32
          omega)
      omega

theorem sumWords_isOk (fits : sum.toNat + wordSum bytes < 0x100000000) :
    ∃ total, sumWords sum bytes = .ok total ∧ total.toNat = sum.toNat + wordSum bytes := by
  have same := UInt32.toNat_ofNat_of_lt' (show sum.toNat + wordSum bytes < UInt32.size from fits)
  exact ⟨_, sumWords_eq_ok_iff.2 same, same⟩

/-- What is left of a sum when all carries are folded back: zero of zero, and otherwise the number from
1 to 65535 that the sum is congruent to. -/
def residue (n : Nat) : Nat := if n = 0 then 0 else (n - 1) % 0xffff + 1

theorem residue_of_le {n : Nat} (h : n ≤ 0xffff) : residue n = n := by
  unfold residue
  split <;> omega

theorem residue_carry (n : Nat) : residue (n % 0x10000 + n / 0x10000) = residue n := by
  unfold residue
  split <;> split <;> omega

theorem residue_add_complement (n : Nat) : residue (n + (0xffff - residue n)) = 0xffff := by
  unfold residue
  split <;> split <;> omega

theorem toNat_fold (sum : UInt32) :
    (fold sum).toNat = sum.toNat % 0x10000 + sum.toNat / 0x10000 := by
  have := sum.toNat_lt
  rw [fold, UInt32.toNat_add, UInt32.toNat_and, UInt32.toNat_shiftRight,
    show (0xffff : UInt32).toNat = 2 ^ 16 - 1 by rfl, Nat.and_two_pow_sub_one_eq_mod,
    show (16 : UInt32).toNat % 32 = 16 by rfl, Nat.shiftRight_eq_div_pow]
  omega

/-- A checksum is the complement of the residue of the sum. -/
theorem toNat_finish (sum : UInt32) : (finish sum).toNat = 0xffff - residue sum.toNat := by
  have := sum.toNat_lt
  have twice : (fold (fold sum)).toNat ≤ 0xffff := by
    rw [toNat_fold, toNat_fold]
    omega
  have same : residue sum.toNat = (fold (fold sum)).toNat := by
    rw [← residue_carry, ← toNat_fold, ← residue_carry, ← toNat_fold, residue_of_le twice]
  rw [finish, UInt16.toNat_not, UInt32.toNat_toUInt16, same]
  change 0xffff - _ % 2 ^ 16 = _
  rw [Nat.mod_eq_of_lt (by omega)]

/-- The bytes, a checksum among them, add up to nothing but ones. -/
def Verifies (bytes : Bytes) : Prop := finish <$> sumWords 0 bytes = .ok 0

theorem verifies_of_residue (fits : wordSum bytes < 0x100000000)
    (ones : residue (wordSum bytes) = 0xffff) : Verifies bytes := by
  obtain ⟨total, gathered, total_eq⟩ :=
    sumWords_isOk (show (0 : UInt32).toNat + wordSum bytes < _ by simpa using fits)
  rw [UInt32.toNat_zero, Nat.zero_add] at total_eq
  have complement := toNat_finish total
  rw [total_eq, ones] at complement
  rw [Verifies, gathered]
  exact congrArg Except.ok (UInt16.toNat_inj.1 complement)

/-- A word at an even offset counts beside what lies before and behind it. -/
theorem wordSum_overlay {offset : Nat} (n : UInt16) (even : offset % 2 = 0)
    (fits : offset + 2 ≤ bytes.length) :
    wordSum (overlay bytes offset (bytesOf16 n)) =
      wordSum (bytes.take offset) + n.toNat + wordSum (bytes.drop (offset + 2)) := by
  have length : (bytes.take offset).length = offset := List.length_take_of_le (by omega)
  rw [overlay, wordSum_append (by simp [length]; omega), wordSum_append (by rw [length]; exact even),
    wordSum_bytesOf16, length_bytesOf16]

/-- The complement of all other words makes the bytes verify. -/
theorem verifies_overlay {offset : Nat} (even : offset % 2 = 0) (fits : offset + 2 ≤ bytes.length)
    (others : sum.toNat = wordSum (bytes.take offset) + wordSum (bytes.drop (offset + 2)))
    (room : sum.toNat + 0xffff < 0x100000000) :
    Verifies (overlay bytes offset (bytesOf16 (finish sum))) := by
  have all : wordSum (overlay bytes offset (bytesOf16 (finish sum))) =
      sum.toNat + (0xffff - residue sum.toNat) := by
    rw [wordSum_overlay _ even fits, toNat_finish, others]
    omega
  apply verifies_of_residue
  · omega
  · rw [all, residue_add_complement]

/-- The checksum of an IPv4 header is that of all words but the one it is written into. -/
theorem ofIpv4Header_isOk (complete : 12 ≤ bytes.length)
    (fits : wordSum (bytes.take 10) + wordSum (bytes.drop 12) < 0x100000000) :
    ∃ sum, ofIpv4Header bytes = .ok (finish sum) ∧
      sum.toNat = wordSum (bytes.take 10) + wordSum (bytes.drop 12) := by
  have before : slice bytes 0 10 = .ok (bytes.take 10) := slice_eq_ok (Nat.zero_le _) (by omega)
  have after : slice bytes 12 bytes.length = .ok (bytes.drop 12) := by
    rw [slice_eq_ok complete (Nat.le_refl _), List.take_length]
  obtain ⟨first, first_eq, first_sum⟩ :=
    sumWords_isOk (show (0 : UInt32).toNat + wordSum (bytes.take 10) < _ by
      rw [UInt32.toNat_zero]
      omega)
  rw [UInt32.toNat_zero, Nat.zero_add] at first_sum
  obtain ⟨sum, sum_eq, sum_sum⟩ :=
    sumWords_isOk (show first.toNat + wordSum (bytes.drop 12) < _ by omega)
  refine ⟨sum, ?_, by rw [sum_sum, first_sum]⟩
  rw [ofIpv4Header, before, ok_bind, after, ok_bind, first_eq, ok_bind, sum_eq]
  rfl

/-- The pseudo-header that stands before a segment while its checksum is computed: both addresses, the
number of the protocol behind a zero byte, and the length of the segment. -/
def pseudoHeaderBytes (source destination : UInt32) (protocol : UInt8) (length : UInt16) : Bytes :=
  bytesOf32 source ++ bytesOf32 destination ++ [0, protocol] ++ bytesOf16 length

@[simp]
theorem length_pseudoHeaderBytes (source destination : UInt32) (protocol : UInt8) (length : UInt16) :
    (pseudoHeaderBytes source destination protocol length).length = 12 := rfl

private theorem wordSum_bytesOf32 (n : UInt32) :
    wordSum (bytesOf32 n) = n.toNat / 0x10000 + n.toNat % 0x10000 := by
  have := n.toNat_lt
  rw [bytesOf32, wordSum_append (by simp), wordSum_bytesOf16, wordSum_bytesOf16, UInt32.toNat_toUInt16,
    UInt32.toNat_toUInt16, UInt32.toNat_shiftRight, show (16 : UInt32).toNat % 32 = 16 by rfl,
    Nat.shiftRight_eq_div_pow]
  omega

theorem wordSum_pseudoHeaderBytes (source destination : UInt32) (protocol : UInt8)
    (length : UInt16) :
    wordSum (pseudoHeaderBytes source destination protocol length) =
      (pseudoHeader source destination protocol length).toNat := by
  have halves (n : UInt32) : (n >>> (16 : UInt32)).toNat = n.toNat / 0x10000 ∧
      (n &&& (0xffff : UInt32)).toNat = n.toNat % 0x10000 := by
    rw [UInt32.toNat_shiftRight, show (16 : UInt32).toNat % 32 = 16 by rfl,
      Nat.shiftRight_eq_div_pow, UInt32.toNat_and, show (0xffff : UInt32).toNat = 2 ^ 16 - 1 by rfl,
      Nat.and_two_pow_sub_one_eq_mod]
    exact ⟨rfl, rfl⟩
  have := source.toNat_lt
  have := destination.toNat_lt
  have := protocol.toNat_lt
  have := length.toNat_lt
  rw [pseudoHeaderBytes, wordSum_append (by simp), wordSum_append (by simp), wordSum_append (by simp),
    wordSum_bytesOf32, wordSum_bytesOf32, wordSum_bytesOf16]
  simp only [pseudoHeader, UInt32.toNat_add, halves, UInt8.toNat_toUInt32, UInt16.toNat_toUInt32,
    wordSum, UInt8.toNat_zero]
  omega

end TunnelRelay.Checksum
