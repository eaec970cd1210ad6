import TunnelRelay.Header.Udp
import TunnelRelay.Proofs.Bytes

/-!
# Fields of a UDP header

A header is known by the values of its fields, and each way to write it changes its own field only.
-/

namespace TunnelRelay.UdpHeader

structure Fields where
  sourcePort : UInt16
  destinationPort : UInt16
  length : UInt16
  checksum : UInt16

def fields (h : UdpHeader) : Fields where
  sourcePort := h.sourcePort
  destinationPort := h.destinationPort
  length := h.length
  checksum := h.checksum

variable (h : UdpHeader)

theorem ofBytes_eq : ofBytes h.bytes = .ok h := dif_pos h.complete

theorem ofBytes_eq_ok_iff {h : UdpHeader} {bytes : Bytes} : ofBytes bytes = .ok h ↔ h.bytes = bytes := by
  constructor
  · intro ho
    unfold ofBytes at ho
    split at ho <;> cases ho
    rfl
  · rintro rfl
    exact h.ofBytes_eq

private theorem getElem?_write {offset : Nat} {new : Bytes}
    (fits : offset + new.length ≤ udpHeaderLength) (i : Nat) :
    (h.write offset new fits).bytes[i]? =
      if offset ≤ i ∧ i < offset + new.length then new[i - offset]? else h.bytes[i]? :=
  getElem?_overlay (Nat.le_trans fits h.complete) i

@[simp]
theorem fields_setSourcePort (port : UInt16) :
    (h.setSourcePort port).fields = { h.fields with sourcePort := port } := by
  simp [fields, sourcePort, destinationPort, length, checksum, setSourcePort, word16At, bytesOf16,
    getElem?_write]

@[simp]
theorem fields_setDestinationPort (port : UInt16) :
    (h.setDestinationPort port).fields = { h.fields with destinationPort := port } := by
  simp [fields, sourcePort, destinationPort, length, checksum, setDestinationPort, word16At,
    bytesOf16, getElem?_write]

theorem length_setSourcePort (port : UInt16) :
    (h.setSourcePort port).bytes.length = h.bytes.length := length_write ..

theorem length_setDestinationPort (port : UInt16) :
    (h.setDestinationPort port).bytes.length = h.bytes.length := length_write ..

theorem length_swapPorts : h.swapPorts.bytes.length = h.bytes.length := by
  rw [swapPorts, length_setDestinationPort, length_setSourcePort]

@[simp]
theorem fields_swapPorts :
    h.swapPorts.fields =
      { h.fields with sourcePort := h.destinationPort, destinationPort := h.sourcePort } := by
  simp [swapPorts]

private theorem fields_setLength (length : UInt16) :
    (h.write 4 (bytesOf16 length) (by simp [udpHeaderLength])).fields =
      { h.fields with length } := by
  simp [fields, sourcePort, destinationPort, UdpHeader.length, checksum, word16At, bytesOf16,
    getElem?_write]

theorem fields_setPayloadLength {h h' : UdpHeader} {payload : UInt16}
    (hs : h.setPayloadLength payload = .ok h') :
    h'.fields = { h.fields with length := udpHeaderLength.toUInt16 + payload } ∧
      h'.bytes.length = h.bytes.length := by
  unfold setPayloadLength at hs
  split at hs <;> cases hs
  exact ⟨fields_setLength h _, length_write ..⟩

@[simp]
theorem fields_clearChecksum : h.clearChecksum.fields = { h.fields with checksum := 0 } := by
  simp [fields, sourcePort, destinationPort, length, checksum, clearChecksum, word16At, bytesOf16,
    getElem?_write]
  decide

end TunnelRelay.UdpHeader
