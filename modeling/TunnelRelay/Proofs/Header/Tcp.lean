import TunnelRelay.Header.Tcp
import TunnelRelay.Proofs.Bytes

/-!
# Fields of a TCP header

A header is known by the values of its fields, and each way to write it changes its own field only.
-/

namespace TunnelRelay

namespace TcpHeader

structure Fields where
  sourcePort : UInt16
  destinationPort : UInt16
  sequence : UInt32
  acknowledgement : UInt32
  headerLength : Nat
  flags : TcpFlags
  window : UInt16
  checksum : UInt16

def fields (h : TcpHeader) : Fields where
  sourcePort := h.sourcePort
  destinationPort := h.destinationPort
  sequence := h.sequence
  acknowledgement := h.acknowledgement
  headerLength := h.headerLength
  flags := h.flags
  window := h.window
  checksum := h.checksum

variable (h : TcpHeader)

theorem ofBytes_eq : ofBytes h.bytes = .ok h := dif_pos h.complete

theorem ofBytes_eq_ok_iff {h : TcpHeader} {bytes : Bytes} : ofBytes bytes = .ok h ↔ h.bytes = bytes := by
  constructor
  · intro ho
    unfold ofBytes at ho
    split at ho <;> cases ho
    rfl
  · rintro rfl
    exact h.ofBytes_eq

/-- What a longer byte string says as a header is what its front says. -/
theorem fields_eq_of_append {h h' : TcpHeader} (back : Bytes) (hb : h'.bytes = h.bytes ++ back) :
    h'.fields = h.fields := by
  have hl : 20 ≤ h.bytes.length := h.complete
  have get (i : Nat) (hi : i < 20) : h'.bytes.getD i 0 = h.bytes.getD i 0 := by
    rw [hb, List.getD_eq_getElem?_getD, List.getElem?_append_left (by omega),
      List.getD_eq_getElem?_getD]
  simp only [fields, sourcePort, destinationPort, sequence, acknowledgement, headerLength, flags,
    window, checksum, word32At, word16At]
  simp only [get, Nat.reduceAdd, Nat.reduceLT]

theorem ofBytes_append (back : Bytes) :
    ∃ h', ofBytes (h.bytes ++ back) = .ok h' ∧ h'.fields = h.fields := by
  have complete : tcpMinHeader ≤ (h.bytes ++ back).length := by
    rw [List.length_append]
    exact Nat.le_add_right_of_le h.complete
  exact ⟨⟨_, complete⟩, dif_pos complete, fields_eq_of_append back rfl⟩

private theorem getElem?_write {offset : Nat} {new : Bytes}
    (fits : offset + new.length ≤ tcpMinHeader) (i : Nat) :
    (h.write offset new fits).bytes[i]? =
      if offset ≤ i ∧ i < offset + new.length then new[i - offset]? else h.bytes[i]? :=
  getElem?_overlay (Nat.le_trans fits h.complete) i

@[simp]
theorem fields_setSourcePort (port : UInt16) :
    (h.setSourcePort port).fields = { h.fields with sourcePort := port } := by
  simp [fields, sourcePort, destinationPort, sequence, acknowledgement, headerLength, flags, window,
    checksum, setSourcePort, word32At, word16At, bytesOf16, getElem?_write]

@[simp]
theorem fields_setDestinationPort (port : UInt16) :
    (h.setDestinationPort port).fields = { h.fields with destinationPort := port } := by
  simp [fields, sourcePort, destinationPort, sequence, acknowledgement, headerLength, flags, window,
    checksum, setDestinationPort, word32At, word16At, bytesOf16, getElem?_write]

theorem length_setSourcePort (port : UInt16) :
    (h.setSourcePort port).bytes.length = h.bytes.length := length_write ..

theorem length_setDestinationPort (port : UInt16) :
    (h.setDestinationPort port).bytes.length = h.bytes.length := length_write ..

theorem length_setSequence (n : UInt32) : (h.setSequence n).bytes.length = h.bytes.length :=
  length_write ..

theorem length_setAcknowledgement (n : UInt32) :
    (h.setAcknowledgement n).bytes.length = h.bytes.length := length_write ..

theorem length_setFlags (flags : TcpFlags) : (h.setFlags flags).bytes.length = h.bytes.length := by
  unfold setFlags
  exact length_write ..

theorem length_setWindow (window : UInt16) : (h.setWindow window).bytes.length = h.bytes.length :=
  length_write ..

theorem length_swapPorts : h.swapPorts.bytes.length = h.bytes.length := by
  rw [swapPorts, length_setDestinationPort, length_setSourcePort]

@[simp]
theorem fields_swapPorts :
    h.swapPorts.fields =
      { h.fields with sourcePort := h.destinationPort, destinationPort := h.sourcePort } := by
  simp [swapPorts]

@[simp]
theorem fields_setSequence (n : UInt32) :
    (h.setSequence n).fields = { h.fields with sequence := n } := by
  simp [fields, sourcePort, destinationPort, sequence, acknowledgement, headerLength, flags, window,
    checksum, setSequence, word32At, word16At, bytesOf32, bytesOf16, getElem?_write]

@[simp]
theorem fields_setAcknowledgement (n : UInt32) :
    (h.setAcknowledgement n).fields = { h.fields with acknowledgement := n } := by
  simp [fields, sourcePort, destinationPort, sequence, acknowledgement, headerLength, flags, window,
    checksum, setAcknowledgement, word32At, word16At, bytesOf32, bytesOf16, getElem?_write]

@[simp]
theorem fields_setWindow (window : UInt16) :
    (h.setWindow window).fields = { h.fields with window } := by
  simp [fields, sourcePort, destinationPort, sequence, acknowledgement, headerLength, flags,
    TcpHeader.window, checksum, setWindow, word32At, word16At, bytesOf16, getElem?_write]

@[simp]
theorem fields_setChecksum (checksum : UInt16) :
    (h.setChecksum checksum).fields = { h.fields with checksum } := by
  simp [fields, sourcePort, destinationPort, sequence, acknowledgement, headerLength, flags, window,
    TcpHeader.checksum, setChecksum, word32At, word16At, bytesOf16, getElem?_write]

private theorem shared_byte (b ns : UInt8) :
    ((b &&& (0xfe : UInt8)) ||| (ns &&& 1)) >>> 4 = b >>> 4 ∧
      ((b &&& (0xfe : UInt8)) ||| (ns &&& 1)) &&& 1 = ns &&& 1 := by
  have key : ∀ x : BitVec 8, ∀ bit : Fin 2,
      ((x &&& 0xfe#8) ||| BitVec.ofNat 8 bit) >>> 4 = x >>> 4 ∧
        ((x &&& 0xfe#8) ||| BitVec.ofNat 8 bit) &&& 1#8 = BitVec.ofNat 8 bit := by
    decide +kernel
  have bit : (ns &&& 1).toBitVec = BitVec.ofNat 8 (ns.toNat % 2) := by
    apply BitVec.eq_of_toNat_eq
    simp [Nat.and_one_is_mod]
    omega
  obtain ⟨h₁, h₂⟩ := key b.toBitVec ⟨ns.toNat % 2, Nat.mod_lt _ (by decide)⟩
  rw [← bit] at h₁ h₂
  exact ⟨UInt8.toBitVec_inj.1 h₁, UInt8.toBitVec_inj.1 h₂⟩

private theorem ofBits_word16 (bits : UInt16) :
    TcpFlags.ofBits (word16 ((bits >>> 8).toUInt8 &&& 1) bits.toUInt8) = .ofBits bits := by
  simp only [TcpFlags.ofBits, TcpFlags.mk.injEq]
  apply UInt16.toNat_inj.1
  have := bits.toNat_lt
  simp [toNat_word16, Nat.shiftRight_eq_div_pow, Nat.and_one_is_mod]
  rw [show 511 = 2 ^ 9 - 1 by rfl, Nat.and_two_pow_sub_one_eq_mod, Nat.and_two_pow_sub_one_eq_mod]
  omega

@[simp]
theorem fields_setFlags (flags : TcpFlags) :
    (h.setFlags flags).fields = { h.fields with flags := .ofBits flags.bits } := by
  obtain ⟨hl, hf⟩ := shared_byte (h.bytes.getD 12 0) (flags.bits >>> 8).toUInt8
  have hb := ofBits_word16 flags.bits
  simp only [List.getD_eq_getElem?_getD] at hl hf
  simp only [fields, sourcePort, destinationPort, sequence, acknowledgement, headerLength,
    TcpHeader.flags, window, checksum, setFlags, word32At, word16At, getElem?_write,
    List.getD_eq_getElem?_getD]
  simp [-UInt8.toNat_shiftRight, hl, hf, hb]

/-- A header without options declares the length of its fixed fields. -/
@[simp]
theorem fields_dropOptions :
    h.dropOptions.fields = { h.fields with headerLength := tcpMinHeader } := by
  have key : ∀ x : BitVec 8, (((x &&& 0x0f#8) ||| 0x50#8) >>> 4).toNat * 4 = 20 ∧
      ((x &&& 0x0f#8) ||| 0x50#8) &&& 1#8 = x &&& 1#8 := by
    decide +kernel
  obtain ⟨hl, hf⟩ := key (h.bytes.getD 12 0).toBitVec
  replace hf : ((h.bytes.getD 12 0 &&& (0x0f : UInt8)) ||| 0x50) &&& 1 = h.bytes.getD 12 0 &&& 1 :=
    UInt8.toBitVec_inj.1 hf
  replace hl : (((h.bytes.getD 12 0 &&& (0x0f : UInt8)) ||| 0x50) >>> 4).toNat * 4 = 20 := hl
  simp only [List.getD_eq_getElem?_getD] at hl hf
  simp only [fields, sourcePort, destinationPort, sequence, acknowledgement, headerLength, flags,
    window, checksum, dropOptions, word32At, word16At, getElem?_write, List.getD_eq_getElem?_getD]
  simp [-UInt8.toNat_shiftRight, hl, hf, tcpMinHeader]

/-- An update changes no field but the checksum, and the length stays. -/
theorem fields_updateChecksum {h h' : TcpHeader} {source destination : UInt32} {payload : Bytes}
    (hu : h.updateChecksum source destination payload = .ok h') :
    (∃ checksum, h'.fields = { h.fields with checksum }) ∧ h'.bytes.length = h.bytes.length := by
  obtain ⟨sum, rfl⟩ : ∃ sum, h' = (h.setChecksum 0).setChecksum sum := by
    simp only [updateChecksum, bind, Except.bind, pure, Except.pure] at hu
    repeat' split at hu
    all_goals cases hu
    exact ⟨_, rfl⟩
  exact ⟨⟨sum, by simp⟩, (length_write ..).trans (length_write ..)⟩

end TcpHeader

end TunnelRelay
