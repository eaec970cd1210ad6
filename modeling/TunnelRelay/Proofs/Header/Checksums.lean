import TunnelRelay.Proofs.Checksum
import TunnelRelay.Proofs.Header.Ipv4
import TunnelRelay.Proofs.Header.Transport

/-!
# Headers with checksums

A header that is as long as it declares can be given a checksum, and then it verifies: the IPv4 header by
itself, a TCP header with its payload behind the pseudo-header. A UDP header goes without one.
-/

namespace TunnelRelay

open Checksum

private theorem nibble_le (b : UInt8) : (b &&& (0x0f : UInt8)).toNat ≤ 15 := by
  rw [UInt8.toNat_and]
  exact Nat.and_le_right

namespace Ipv4Header

variable {h : Ipv4Header}

theorem headerLength_le (h : Ipv4Header) : h.headerLength ≤ 60 := by
  have := nibble_le (h.bytes.getD 0 0)
  unfold headerLength
  omega

/-- The checksum of a whole header can be computed, and the header verifies with it. -/
theorem updateChecksum_verifies (whole : h.headerLength = h.bytes.length) :
    ∃ h', h.updateChecksum = .ok h' ∧ Verifies h'.bytes := by
  have complete : 20 ≤ h.bytes.length := h.complete
  have short := h.headerLength_le
  have all : slice h.bytes 0 h.headerLength = .ok h.bytes := by
    rw [whole, slice_eq_ok (Nat.zero_le _) (Nat.le_refl _), List.take_length]
    rfl
  have before := wordSum_le (h.bytes.take 10)
  have after := wordSum_le (h.bytes.drop 12)
  simp only [wordsBound, List.length_take, List.length_drop] at before after
  obtain ⟨sum, computed, others⟩ := ofIpv4Header_isOk (show 12 ≤ h.bytes.length by omega) (by omega)
  refine ⟨h.write 10 (bytesOf16 (finish sum)) (by simp [ipv4MinHeader]), ?_, ?_⟩
  · rw [updateChecksum, all, ok_bind, computed]
    rfl
  · exact verifies_overlay rfl (by omega) others (by omega)

end Ipv4Header

namespace TcpHeader

variable {h : TcpHeader}

theorem headerLength_le (h : TcpHeader) : h.headerLength ≤ 60 := by
  have := (h.bytes.getD 12 0).toNat_lt
  unfold headerLength
  rw [UInt8.toNat_shiftRight, Nat.shiftRight_eq_div_pow]
  change _ / 2 ^ 4 * 4 ≤ _
  omega

/-- The segment that a header makes with a payload, behind its pseudo-header. -/
def checked (h : TcpHeader) (source destination : UInt32) (payload : Bytes) : Bytes :=
  pseudoHeaderBytes source destination Protocol.tcp.number
    (h.bytes.length + payload.length).toUInt16 ++ h.bytes ++ payload

variable {source destination : UInt32} {payload : Bytes}

private theorem checked_setChecksum (checksum : UInt16) :
    (h.setChecksum checksum).checked source destination payload =
      overlay (h.checked source destination payload) 28 (bytesOf16 checksum) := by
  have complete : 20 ≤ h.bytes.length := h.complete
  have same : (h.setChecksum checksum).bytes.length = h.bytes.length := length_write ..
  have inside : 16 + (bytesOf16 checksum).length ≤ h.bytes.length := by
    rw [length_bytesOf16]
    omega
  unfold checked
  rw [same]
  exact (overlay_append_middle inside).symm

-- The checksum of a whole header is that of the segment with nothing in the checksum's place.
private theorem updateChecksum_eq (whole : h.headerLength = h.bytes.length)
    (short : h.bytes.length + payload.length ≤ maxPacketLength) :
    ∃ sum, h.updateChecksum source destination payload =
        .ok ((h.setChecksum 0).setChecksum (finish sum)) ∧
      sum.toNat = wordSum ((h.setChecksum 0).checked source destination payload) ∧
      sum.toNat + 0xffff < 0x100000000 := by
  have complete : 20 ≤ h.bytes.length := h.complete
  have low := h.headerLength_le
  have even : h.bytes.length % 2 = 0 := by
    rw [← whole, headerLength]
    omega
  have length : (h.setChecksum 0).bytes.length = h.bytes.length := length_write ..
  have declared : (h.setChecksum 0).headerLength = (h.setChecksum 0).bytes.length := by
    rw [length, ← whole]
    exact congrArg Fields.headerLength (h.fields_setChecksum 0)
  have all : slice (h.setChecksum 0).bytes 0 (h.setChecksum 0).headerLength =
      .ok (h.setChecksum 0).bytes := by
    rw [declared, slice_eq_ok (Nat.zero_le _) (Nat.le_refl _), List.take_length]
    rfl
  have start_sum := wordSum_pseudoHeaderBytes source destination Protocol.tcp.number
    ((h.setChecksum 0).bytes.length + payload.length).toUInt16
  have start_le := wordSum_le (pseudoHeaderBytes source destination Protocol.tcp.number
    ((h.setChecksum 0).bytes.length + payload.length).toUInt16)
  have header_le := wordSum_le (h.setChecksum 0).bytes
  have payload_le := wordSum_le payload
  rw [start_sum] at start_le
  simp only [wordsBound, length_pseudoHeaderBytes, length] at start_le header_le payload_le
  unfold maxPacketLength at short
  obtain ⟨first, first_eq, first_sum⟩ :=
    sumWords_isOk (show (pseudoHeader source destination Protocol.tcp.number
      ((h.setChecksum 0).bytes.length + payload.length).toUInt16).toNat +
        wordSum (h.setChecksum 0).bytes < _ by
      rw [length]
      omega)
  rw [← start_sum] at first_sum
  obtain ⟨sum, sum_eq, sum_sum⟩ := sumWords_isOk (show first.toNat + wordSum payload < _ by
    rw [start_sum, length] at first_sum
    omega)
  refine ⟨sum, ?_, ?_, ?_⟩
  · unfold updateChecksum
    dsimp only
    rw [all, ok_bind, declared, first_eq, ok_bind, sum_eq]
    rfl
  · rw [checked, wordSum_append (by simp [length]; omega), wordSum_append (by simp), sum_sum, first_sum]
  · rw [start_sum, length] at first_sum
    omega

/-- The checksum of a whole header can be computed, and the segment verifies with it. -/
theorem updateChecksum_verifies (source destination : UInt32)
    (whole : h.headerLength = h.bytes.length)
    (short : h.bytes.length + payload.length ≤ maxPacketLength) :
    ∃ h', h.updateChecksum source destination payload = .ok h' ∧
      Verifies (h'.checked source destination payload) := by
  obtain ⟨sum, updated, others, room⟩ := updateChecksum_eq whole short
  refine ⟨_, updated, ?_⟩
  have complete : 20 ≤ h.bytes.length := h.complete
  have field : 28 + 2 ≤ (h.checked source destination payload).length := by
    simp only [checked, List.length_append, length_pseudoHeaderBytes]
    omega
  rw [checked_setChecksum, wordSum_overlay 0 rfl field, UInt16.toNat_zero, Nat.add_zero] at others
  rw [checked_setChecksum, checked_setChecksum, overlay_overlay (by rfl) field]
  exact verifies_overlay rfl field others room

end TcpHeader

namespace TransportHeader

variable {t : TransportHeader} {source destination : UInt32} {payload : Bytes}

/-- A TCP checksum covers the segment behind its pseudo-header, and a UDP checksum is left out. -/
def Verifies (source destination : UInt32) (payload : Bytes) : TransportHeader → Prop
  | tcp h => Checksum.Verifies (h.checked source destination payload)
  | udp h => h.checksum = 0

theorem updateChecksum_verifies (source destination : UInt32) (whole : t.headerLength = t.bytes.length)
    (short : t.bytes.length + payload.length ≤ maxPacketLength) :
    ∃ t', t.updateChecksum source destination payload = .ok t' ∧
      t'.Verifies source destination payload := by
  cases t with
  | tcp h =>
    obtain ⟨h', updated, verifies⟩ := h.updateChecksum_verifies source destination whole short
    exact ⟨tcp h', congrArg (tcp <$> ·) updated, verifies⟩
  | udp h => exact ⟨_, rfl, congrArg UdpHeader.Fields.checksum h.fields_clearChecksum⟩

end TransportHeader

end TunnelRelay
