import TunnelRelay.Proofs.Checksum.Algebra
import TunnelRelay.Proofs.Header.Checksums

/-!
# Checksums in their places

A checksum goes to its own place in a header and depends on everything but this place. So computing it again
changes nothing, whatever the place held before.
-/

namespace TunnelRelay

open Checksum

namespace Checksum

variable {bytes : Bytes}

/-- What an IPv4 header holds in its checksum field does not count. -/
theorem ofIpv4Header_overlay (complete : 12 ≤ bytes.length) (held : UInt16) :
    ofIpv4Header (overlay bytes 10 (bytesOf16 held)) = ofIpv4Header bytes := by
  have inside : 10 + (bytesOf16 held).length ≤ bytes.length := by
    rw [length_bytesOf16]
    omega
  have complete' : 12 ≤ (overlay bytes 10 (bytesOf16 held)).length := by rwa [length_overlay inside]
  rw [ofIpv4Header_eq complete', overlay_overlay (by simp) inside, ofIpv4Header_eq complete]

/-- The accumulator begins with the words of the pseudo-header, none of which is lost. -/
theorem sumWords_pseudoHeader (source destination : UInt32) (protocol : UInt8) (length : UInt16) :
    sumWords 0 (pseudoHeaderBytes source destination protocol length ++ bytes) =
      sumWords (pseudoHeader source destination protocol length) bytes := by
  have start : sumWords 0 (pseudoHeaderBytes source destination protocol length) =
      .ok (pseudoHeader source destination protocol length) := by
    rw [sumWords_eq_ok_iff, wordSum_pseudoHeaderBytes, UInt32.toNat_zero, Nat.zero_add]
  rw [← sumWords_append (by simp), start, ok_bind]

/-- As much as fits into a packet can be summed behind any pseudo-header. -/
theorem sumWords_pseudoHeader_isOk (source destination : UInt32) (protocol : UInt8) (length : UInt16)
    (short : bytes.length ≤ maxPacketLength) :
    ∃ total, sumWords (pseudoHeader source destination protocol length) bytes = .ok total ∧
      total.toNat =
        wordSum (pseudoHeaderBytes source destination protocol length) + wordSum bytes := by
  have front := wordSum_le (pseudoHeaderBytes source destination protocol length)
  have back := wordSum_le bytes
  simp only [wordsBound, length_pseudoHeaderBytes] at front back
  unfold maxPacketLength at short
  rw [wordSum_pseudoHeaderBytes] at front ⊢
  exact sumWords_isOk (by omega)

/-- A TCP segment adds up to nothing but ones behind its pseudo-header, and the accumulator holds the whole
sum. -/
def SegmentVerifies (source destination : UInt32) (length : UInt16) (segment : Bytes) : Prop :=
  ∃ total, sumWords (pseudoHeader source destination Protocol.tcp.number length) segment = .ok total ∧
    total.toNat = wordSum (pseudoHeaderBytes source destination Protocol.tcp.number length) +
      wordSum segment ∧
    finish total = 0

end Checksum

namespace Ipv4Header

variable {h h' : Ipv4Header}

theorem eq_of_bytes (same : h'.bytes = h.bytes) : h' = h := by
  cases h
  cases h'
  cases same
  rfl

def setChecksum (h : Ipv4Header) (checksum : UInt16) : Ipv4Header :=
  h.write 10 (bytesOf16 checksum) (Nat.le_of_ble_eq_true rfl)

/-- The checksum of the header that is declared. -/
def expectedChecksum (h : Ipv4Header) : Checked UInt16 := do
  ofIpv4Header (← slice h.bytes 0 h.headerLength)

theorem updateChecksum_eq (h : Ipv4Header) : h.updateChecksum = h.setChecksum <$> h.expectedChecksum := by
  rw [updateChecksum, expectedChecksum, map_bind]
  simp only [map_eq_pure_bind]
  rfl

/-- Only the checksum that is written last stays. -/
theorem setChecksum_setChecksum (h : Ipv4Header) (first second : UInt16) :
    (h.setChecksum first).setChecksum second = h.setChecksum second := by
  have complete : 20 ≤ h.bytes.length := h.complete
  apply eq_of_bytes
  exact overlay_overlay rfl (by rw [length_bytesOf16]; omega)

theorem fields_setChecksum (h : Ipv4Header) (checksum : UInt16) :
    (h.setChecksum checksum).fields = { h.fields with checksum } :=
  fields_write_checksum h checksum

theorem length_setChecksum (h : Ipv4Header) (checksum : UInt16) :
    (h.setChecksum checksum).bytes.length = h.bytes.length := length_write ..

private theorem expectedChecksum_eq (whole : h.headerLength = h.bytes.length) :
    h.expectedChecksum = ofIpv4Header h.bytes := by
  have all : slice h.bytes 0 h.headerLength = .ok h.bytes := by
    rw [whole, slice_eq_ok (Nat.zero_le _) (Nat.le_refl _), List.take_length]
    rfl
  rw [expectedChecksum, all, ok_bind]

/-- What a whole header holds in its checksum field does not count. -/
theorem expectedChecksum_setChecksum (whole : h.headerLength = h.bytes.length) (held : UInt16) :
    (h.setChecksum held).expectedChecksum = h.expectedChecksum := by
  have complete : 20 ≤ h.bytes.length := h.complete
  have whole' : (h.setChecksum held).headerLength = (h.setChecksum held).bytes.length := by
    rw [length_setChecksum, ← whole]
    exact congrArg Fields.headerLength (h.fields_setChecksum held)
  rw [expectedChecksum_eq whole', expectedChecksum_eq whole]
  exact ofIpv4Header_overlay (by omega) held

/-- A header that is up to date stays as it is. -/
theorem updateChecksum_again (whole : h.headerLength = h.bytes.length)
    (updated : h.updateChecksum = .ok h') : h'.updateChecksum = .ok h' := by
  rw [updateChecksum_eq] at updated
  obtain ⟨checksum, computed, rfl⟩ := checked_map_eq_ok.1 updated
  rw [updateChecksum_eq, expectedChecksum_setChecksum whole, computed]
  exact congrArg Except.ok (h.setChecksum_setChecksum checksum checksum)

end Ipv4Header

namespace TcpHeader

variable {h h' : TcpHeader} {source destination : UInt32} {payload : Bytes}

theorem eq_of_bytes (same : h'.bytes = h.bytes) : h' = h := by
  cases h
  cases h'
  cases same
  rfl

/-- Only the checksum that is written last stays. -/
theorem setChecksum_setChecksum (h : TcpHeader) (first second : UInt16) :
    (h.setChecksum first).setChecksum second = h.setChecksum second := by
  have complete : 20 ≤ h.bytes.length := h.complete
  apply eq_of_bytes
  exact overlay_overlay rfl (by rw [length_bytesOf16]; omega)

/-- The checksum of the segment that the header makes with a payload, without what its checksum field
holds. -/
def expectedChecksum (h : TcpHeader) (source destination : UInt32) (payload : Bytes) : Checked UInt16 := do
  let header ← slice (h.setChecksum 0).bytes 0 h.headerLength
  finish <$> sumWords (pseudoHeader source destination Protocol.tcp.number
    (h.headerLength + payload.length).toUInt16) (header ++ payload)

theorem headerLength_setChecksum (h : TcpHeader) (checksum : UInt16) :
    (h.setChecksum checksum).headerLength = h.headerLength :=
  congrArg Fields.headerLength (h.fields_setChecksum checksum)

/-- Header and payload are summed one after the other, which is as good as both together. -/
theorem updateChecksum_eq_map (h : TcpHeader) (source destination : UInt32) (payload : Bytes) :
    h.updateChecksum source destination payload =
      h.setChecksum <$> h.expectedChecksum source destination payload := by
  unfold updateChecksum expectedChecksum
  simp only [setChecksum_setChecksum, headerLength_setChecksum]
  cases found : slice (h.setChecksum 0).bytes 0 h.headerLength with
  | error fault => rfl
  | ok header =>
    have even : header.length % 2 = 0 := by
      rw [length_of_slice found, headerLength]
      omega
    simp only [ok_bind, ← sumWords_append even, map_bind]
    simp only [map_eq_pure_bind, bind_assoc, pure_bind]

/-- What a header holds in its checksum field does not count. -/
theorem expectedChecksum_setChecksum (h : TcpHeader) (held : UInt16) :
    (h.setChecksum held).expectedChecksum source destination payload =
      h.expectedChecksum source destination payload := by
  simp only [expectedChecksum, setChecksum_setChecksum, headerLength_setChecksum]

/-- A header that is up to date stays as it is. -/
theorem updateChecksum_again (updated : h.updateChecksum source destination payload = .ok h') :
    h'.updateChecksum source destination payload = .ok h' := by
  rw [updateChecksum_eq_map] at updated
  obtain ⟨checksum, computed, rfl⟩ := checked_map_eq_ok.1 updated
  rw [updateChecksum_eq_map, expectedChecksum_setChecksum, computed]
  exact congrArg Except.ok (h.setChecksum_setChecksum checksum checksum)

/-- A header verifies with its payload exactly as the segment that they make. -/
theorem segmentVerifies_of_checked (short : h.bytes.length + payload.length ≤ maxPacketLength)
    (verifies : Verifies (h.checked source destination payload)) :
    SegmentVerifies source destination (h.bytes.length + payload.length).toUInt16
      (h.bytes ++ payload) := by
  obtain ⟨total, gathered, exact_sum⟩ := sumWords_pseudoHeader_isOk source destination
    Protocol.tcp.number (h.bytes.length + payload.length).toUInt16
    (show (h.bytes ++ payload).length ≤ _ by rwa [List.length_append])
  rw [Verifies, checked, List.append_assoc, sumWords_pseudoHeader, gathered] at verifies
  exact ⟨total, gathered, exact_sum, Except.ok.inj verifies⟩

end TcpHeader

namespace UdpHeader

variable {h h' : UdpHeader}

theorem eq_of_bytes (same : h'.bytes = h.bytes) : h' = h := by
  cases h
  cases h'
  cases same
  rfl

theorem clearChecksum_again (h : UdpHeader) : h.clearChecksum.clearChecksum = h.clearChecksum :=
  eq_of_bytes (overlay_overlay rfl h.complete)

end UdpHeader

/-- Where a transport header has its checksum. -/
def Protocol.checksumAt : Protocol → Nat
  | tcp => 16
  | udp => 6

namespace TransportHeader

variable {t t' : TransportHeader} {source destination : UInt32} {payload : Bytes}

/-- A TCP header that verifies makes a segment that does. -/
theorem Verifies.segment (verifies : t.Verifies source destination payload) (tcp : t.protocol = .tcp)
    (short : t.bytes.length + payload.length ≤ maxPacketLength) :
    SegmentVerifies source destination (t.bytes.length + payload.length).toUInt16
      (t.bytes ++ payload) := by
  cases t with
  | tcp h => exact TcpHeader.segmentVerifies_of_checked short verifies
  | udp h => cases tcp

/-- A UDP header that verifies has no checksum, wherever it lies. -/
theorem Verifies.blank (verifies : t.Verifies source destination payload) (udp : t.protocol = .udp)
    (front : Bytes) : word16At (front ++ t.bytes ++ payload) (front.length + 6) = 0 := by
  cases t with
  | tcp h => cases udp
  | udp h =>
    have complete : 8 ≤ h.bytes.length := h.complete
    have get (i : Nat) (inside : i < 8) : (front ++ h.bytes ++ payload).getD (front.length + i) 0 =
        h.bytes.getD i 0 := by
      rw [List.getD_eq_getElem?_getD, List.append_assoc,
        List.getElem?_append_right (Nat.le_add_right ..), Nat.add_sub_cancel_left,
        List.getElem?_append_left (by omega), List.getD_eq_getElem?_getD]
    change word16At h.bytes 6 = 0 at verifies
    rw [word16At, Nat.add_assoc]
    change word16 ((front ++ h.bytes ++ payload).getD _ 0) ((front ++ h.bytes ++ payload).getD _ 0) = 0
    rw [get 6 (by decide), get (6 + 1) (by decide)]
    exact verifies

theorem checksumAt_le (t : TransportHeader) : t.protocol.checksumAt + 2 ≤ t.bytes.length := by
  have complete := t.minHeader_le
  cases t with
  | tcp h =>
    replace complete : 20 ≤ h.bytes.length := complete
    change 18 ≤ h.bytes.length
    omega
  | udp h => exact complete

/-- The checksum is written into its place. -/
theorem updateChecksum_inv (updated : t.updateChecksum source destination payload = .ok t') :
    ∃ checksum, t'.bytes = overlay t.bytes t.protocol.checksumAt (bytesOf16 checksum) := by
  cases t with
  | tcp h =>
    obtain ⟨h', updated', rfl⟩ := checked_map_eq_ok.1 updated
    rw [TcpHeader.updateChecksum_eq_map] at updated'
    obtain ⟨checksum, -, rfl⟩ := checked_map_eq_ok.1 updated'
    exact ⟨checksum, rfl⟩
  | udp h =>
    cases updated
    exact ⟨0, rfl⟩

/-- A header that is up to date stays as it is. -/
theorem updateChecksum_again (updated : t.updateChecksum source destination payload = .ok t') :
    t'.updateChecksum source destination payload = .ok t' := by
  cases t with
  | tcp h =>
    obtain ⟨h', updated', rfl⟩ := checked_map_eq_ok.1 updated
    exact congrArg (tcp <$> ·) (TcpHeader.updateChecksum_again updated')
  | udp h =>
    cases updated
    exact congrArg (Except.ok ∘ udp) h.clearChecksum_again

end TransportHeader

end TunnelRelay
