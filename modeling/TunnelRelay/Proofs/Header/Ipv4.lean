import TunnelRelay.Header.Ipv4
import TunnelRelay.Proofs.Bytes

/-!
# Fields of an IPv4 header

A header is known by the values of its fields, and each way to write it changes its own field only.
-/

namespace TunnelRelay.Ipv4Header

/-- What the fixed fields of a header say, as far as the relay reads them. -/
structure Fields where
  version : UInt8
  headerLength : Nat
  totalLength : UInt16
  protocol : UInt8
  checksum : UInt16
  source : UInt32
  destination : UInt32

def fields (h : Ipv4Header) : Fields where
  version := h.version
  headerLength := h.headerLength
  totalLength := h.totalLength
  protocol := h.protocol
  checksum := h.checksum
  source := h.source
  destination := h.destination

variable (h : Ipv4Header)

theorem ofBytes_eq : ofBytes h.bytes = .ok h := dif_pos h.complete

theorem ofBytes_eq_ok_iff {h : Ipv4Header} {bytes : Bytes} : ofBytes bytes = .ok h ↔ h.bytes = bytes := by
  constructor
  · intro ho
    unfold ofBytes at ho
    split at ho <;> cases ho
    rfl
  · rintro rfl
    exact h.ofBytes_eq

/-- What a longer byte string says as a header is what its front says. -/
theorem fields_eq_of_append {h h' : Ipv4Header} (back : Bytes) (hb : h'.bytes = h.bytes ++ back) :
    h'.fields = h.fields := by
  have hl : 20 ≤ h.bytes.length := h.complete
  have get (i : Nat) (hi : i < 20) : h'.bytes.getD i 0 = h.bytes.getD i 0 := by
    rw [hb, List.getD_eq_getElem?_getD, List.getElem?_append_left (by omega),
      List.getD_eq_getElem?_getD]
  simp only [fields, version, headerLength, totalLength, protocol, checksum, source, destination,
    word32At, word16At]
  simp only [get, Nat.reduceAdd, Nat.reduceLT]

/-- A longer byte string can be viewed as a header wherever its front can, and says the same. -/
theorem ofBytes_append (back : Bytes) :
    ∃ h', ofBytes (h.bytes ++ back) = .ok h' ∧ h'.fields = h.fields := by
  have complete : ipv4MinHeader ≤ (h.bytes ++ back).length := by
    rw [List.length_append]
    exact Nat.le_add_right_of_le h.complete
  exact ⟨⟨_, complete⟩, dif_pos complete, fields_eq_of_append back rfl⟩

private theorem getElem?_write {offset : Nat} {new : Bytes}
    (fits : offset + new.length ≤ ipv4MinHeader) (i : Nat) :
    (h.write offset new fits).bytes[i]? =
      if offset ≤ i ∧ i < offset + new.length then new[i - offset]? else h.bytes[i]? :=
  getElem?_overlay (Nat.le_trans fits h.complete) i

@[simp]
theorem fields_setTotalLength (length : UInt16) :
    (h.setTotalLength length).fields = { h.fields with totalLength := length } := by
  simp [fields, version, headerLength, totalLength, protocol, checksum, source, destination,
    setTotalLength, word32At, word16At, bytesOf16, getElem?_write]

@[simp]
theorem fields_setSource (address : UInt32) :
    (h.setSource address).fields = { h.fields with source := address } := by
  simp [fields, version, headerLength, totalLength, protocol, checksum, source, destination,
    setSource, word32At, word16At, bytesOf32, bytesOf16, getElem?_write]

@[simp]
theorem fields_setDestination (address : UInt32) :
    (h.setDestination address).fields = { h.fields with destination := address } := by
  simp [fields, version, headerLength, totalLength, protocol, checksum, source, destination,
    setDestination, word32At, word16At, bytesOf32, bytesOf16, getElem?_write]

theorem length_setSource (address : UInt32) :
    (h.setSource address).bytes.length = h.bytes.length := length_write ..

theorem length_setDestination (address : UInt32) :
    (h.setDestination address).bytes.length = h.bytes.length := length_write ..

theorem length_swapAddresses : h.swapAddresses.bytes.length = h.bytes.length := by
  rw [swapAddresses, length_setDestination, length_setSource]

@[simp]
theorem fields_swapAddresses :
    h.swapAddresses.fields = { h.fields with source := h.destination, destination := h.source } := by
  simp [swapAddresses]

theorem fields_write_checksum (checksum : UInt16) :
    (h.write 10 (bytesOf16 checksum) (by simp [ipv4MinHeader])).fields =
      { h.fields with checksum } := by
  simp [fields, version, headerLength, totalLength, protocol, Ipv4Header.checksum, source,
    destination, word32At, word16At, bytesOf16, getElem?_write]

/-- An update changes no field but the checksum, and the length stays. -/
theorem fields_updateChecksum {h h' : Ipv4Header} (hu : h.updateChecksum = .ok h') :
    (∃ checksum, h'.fields = { h.fields with checksum }) ∧ h'.bytes.length = h.bytes.length := by
  unfold updateChecksum at hu
  cases hp : slice h.bytes 0 h.headerLength with
  | error fault => simp [hp, bind, Except.bind] at hu
  | ok part =>
    cases hc : Checksum.ofIpv4Header part with
    | error fault => simp [hp, hc, bind, Except.bind] at hu
    | ok checksum =>
      simp only [hp, hc, bind, Except.bind, pure, Except.pure, Except.ok.injEq] at hu
      subst hu
      exact ⟨⟨checksum, h.fields_write_checksum checksum⟩, length_write ..⟩

private theorem first_byte (b : UInt8) {n : Nat} (hn : n < 16) :
    ((b &&& (0xf0 : UInt8)) ||| n.toUInt8) >>> 4 = b >>> 4 ∧
      (((b &&& (0xf0 : UInt8)) ||| n.toUInt8) &&& 0x0f).toNat = n := by
  have key : ∀ x : BitVec 8, ∀ n : Fin 16,
      ((x &&& 0xf0#8) ||| BitVec.ofNat 8 n) >>> 4 = x >>> 4 ∧
        (((x &&& 0xf0#8) ||| BitVec.ofNat 8 n) &&& 0x0f#8).toNat = n := by
    decide +kernel
  obtain ⟨hv, hl⟩ := key b.toBitVec ⟨n, hn⟩
  exact ⟨UInt8.toBitVec_inj.1 hv, hl⟩

theorem fields_setHeaderLength {h h' : Ipv4Header} {length : Nat}
    (hs : h.setHeaderLength length = .ok h') :
    h'.fields = { h.fields with headerLength := length } ∧ h'.bytes.length = h.bytes.length := by
  unfold setHeaderLength at hs
  split at hs <;> cases hs
  next hl =>
  obtain ⟨hv, hn⟩ := first_byte (h.bytes.getD 0 0) (show length / 4 < 16 by omega)
  refine ⟨?_, length_write ..⟩
  simp only [List.getD_eq_getElem?_getD] at hv hn
  simp only [fields, version, headerLength, totalLength, protocol, checksum, source, destination,
    word32At, word16At, getElem?_write, List.getD_eq_getElem?_getD]
  simp [hv, -UInt8.toNat_and, hn]
  omega

end TunnelRelay.Ipv4Header
