import TunnelRelay.Header.Transport
import TunnelRelay.Proofs.Fault
import TunnelRelay.Proofs.Header.Tcp
import TunnelRelay.Proofs.Header.Udp

/-!
# Transport headers up to length and checksum

What is written last into a transport header, the length and the checksum, changes nothing that a
flow has set.
-/

namespace TunnelRelay.TransportHeader

/-- The headers agree in everything but the checksum, and for UDP the length. -/
inductive Alike : TransportHeader → TransportHeader → Prop where
  | tcp {h h' : TcpHeader} {checksum : UInt16} (fields_eq : h'.fields = { h.fields with checksum })
      (length_eq : h'.bytes.length = h.bytes.length) : Alike (tcp h) (tcp h')
  | udp {h h' : UdpHeader} {length checksum : UInt16}
      (fields_eq : h'.fields = { h.fields with length, checksum })
      (length_eq : h'.bytes.length = h.bytes.length) : Alike (udp h) (udp h')

variable {t t' t'' : TransportHeader}

theorem Alike.refl (t : TransportHeader) : t.Alike t := by
  cases t with
  | tcp h => exact .tcp rfl rfl
  | udp h => exact .udp rfl rfl

theorem Alike.trans (h : t.Alike t') (h' : t'.Alike t'') : t.Alike t'' := by
  cases h with
  | tcp hf hl =>
    cases h' with
    | tcp hf' hl' => exact .tcp (by rw [hf', hf]) (hl'.trans hl)
  | udp hf hl =>
    cases h' with
    | udp hf' hl' => exact .udp (by rw [hf', hf]) (hl'.trans hl)

theorem Alike.protocol_eq (h : t.Alike t') : t'.protocol = t.protocol := by
  cases h <;> rfl

theorem Alike.length_eq (h : t.Alike t') : t'.bytes.length = t.bytes.length := by
  cases h with
  | tcp _ hl => exact hl
  | udp _ hl => exact hl

theorem Alike.headerLength_eq (h : t.Alike t') : t'.headerLength = t.headerLength := by
  cases h with
  | tcp hf _ => exact congrArg TcpHeader.Fields.headerLength hf
  | udp _ _ => rfl

theorem Alike.sourcePort_eq (h : t.Alike t') : t'.sourcePort = t.sourcePort := by
  cases h with
  | tcp hf _ => exact congrArg TcpHeader.Fields.sourcePort hf
  | udp hf _ => exact congrArg UdpHeader.Fields.sourcePort hf

theorem Alike.destinationPort_eq (h : t.Alike t') : t'.destinationPort = t.destinationPort := by
  cases h with
  | tcp hf _ => exact congrArg TcpHeader.Fields.destinationPort hf
  | udp hf _ => exact congrArg UdpHeader.Fields.destinationPort hf

theorem minHeader_le (t : TransportHeader) : t.protocol.minHeader ≤ t.bytes.length := by
  cases t with
  | tcp h => exact h.complete
  | udp h => exact h.complete

theorem ports_eq_of_append (back : Bytes) (hp : t'.protocol = t.protocol)
    (hb : t'.bytes = t.bytes ++ back) :
    t'.sourcePort = t.sourcePort ∧ t'.destinationPort = t.destinationPort := by
  have front (bytes : Bytes) (hl : 4 ≤ bytes.length) : word16At (bytes ++ back) 0 = word16At bytes 0 ∧
      word16At (bytes ++ back) 2 = word16At bytes 2 := by
    have get (i : Nat) (hi : i < 4) : (bytes ++ back).getD i 0 = bytes.getD i 0 := by
      rw [List.getD_eq_getElem?_getD, List.getElem?_append_left (by omega),
        List.getD_eq_getElem?_getD]
    simp only [word16At, get, Nat.reduceAdd, Nat.reduceLT, and_self]
  cases t with
  | tcp header =>
    cases t' with
    | tcp header' =>
      have hl : 20 ≤ header.bytes.length := header.complete
      replace hb : header'.bytes = header.bytes ++ back := hb
      simp only [sourcePort, destinationPort, TcpHeader.sourcePort, TcpHeader.destinationPort, hb]
      exact front header.bytes (by omega)
    | udp header' => cases hp
  | udp header =>
    cases t' with
    | tcp header' => cases hp
    | udp header' =>
      have hl : 8 ≤ header.bytes.length := header.complete
      replace hb : header'.bytes = header.bytes ++ back := hb
      simp only [sourcePort, destinationPort, UdpHeader.sourcePort, UdpHeader.destinationPort, hb]
      exact front header.bytes (by omega)

theorem headerLength_eq_of_append (back : Bytes) (hp : t'.protocol = t.protocol)
    (hb : t'.bytes = t.bytes ++ back) : t'.headerLength = t.headerLength := by
  cases t with
  | tcp header =>
    cases t' with
    | tcp header' => exact congrArg TcpHeader.Fields.headerLength (TcpHeader.fields_eq_of_append back hb)
    | udp header' => cases hp
  | udp header =>
    cases t' with
    | tcp header' => cases hp
    | udp header' => rfl

theorem ofBytes_eq (t : TransportHeader) : ofBytes t.protocol t.bytes = .ok t := by
  cases t with
  | tcp h => simpa [ofBytes, protocol, bytes] using h.ofBytes_eq
  | udp h => simpa [ofBytes, protocol, bytes] using h.ofBytes_eq

theorem ofBytes_eq_ok_iff {protocol : Protocol} {bytes : Bytes} :
    ofBytes protocol bytes = .ok t ↔ t.protocol = protocol ∧ t.bytes = bytes := by
  constructor
  · intro h
    cases protocol with
    | tcp =>
      simp only [ofBytes, checked_map_eq_ok] at h
      obtain ⟨header, ho, rfl⟩ := h
      exact ⟨rfl, TcpHeader.ofBytes_eq_ok_iff.1 ho⟩
    | udp =>
      simp only [ofBytes, checked_map_eq_ok] at h
      obtain ⟨header, ho, rfl⟩ := h
      exact ⟨rfl, UdpHeader.ofBytes_eq_ok_iff.1 ho⟩
  · rintro ⟨rfl, rfl⟩
    exact t.ofBytes_eq

theorem ofBytes_isOk {protocol : Protocol} {bytes : Bytes} (long : protocol.minHeader ≤ bytes.length) :
    ∃ t, ofBytes protocol bytes = .ok t := by
  cases protocol with
  | tcp => exact ⟨.tcp ⟨bytes, long⟩, congrArg (tcp <$> ·) (dif_pos long)⟩
  | udp => exact ⟨.udp ⟨bytes, long⟩, congrArg (udp <$> ·) (dif_pos long)⟩

@[simp]
theorem protocol_swapPorts (t : TransportHeader) : t.swapPorts.protocol = t.protocol := by
  cases t <;> rfl

@[simp]
theorem protocol_dropOptions (t : TransportHeader) : t.dropOptions.protocol = t.protocol := by
  cases t <;> rfl

@[simp]
theorem ports_swapPorts (t : TransportHeader) :
    t.swapPorts.sourcePort = t.destinationPort ∧ t.swapPorts.destinationPort = t.sourcePort := by
  cases t with
  | tcp h =>
    exact ⟨congrArg TcpHeader.Fields.sourcePort h.fields_swapPorts,
      congrArg TcpHeader.Fields.destinationPort h.fields_swapPorts⟩
  | udp h =>
    exact ⟨congrArg UdpHeader.Fields.sourcePort h.fields_swapPorts,
      congrArg UdpHeader.Fields.destinationPort h.fields_swapPorts⟩

@[simp]
theorem ports_dropOptions (t : TransportHeader) :
    t.dropOptions.sourcePort = t.sourcePort ∧ t.dropOptions.destinationPort = t.destinationPort := by
  cases t with
  | tcp h =>
    exact ⟨congrArg TcpHeader.Fields.sourcePort h.fields_dropOptions,
      congrArg TcpHeader.Fields.destinationPort h.fields_dropOptions⟩
  | udp h => exact ⟨rfl, rfl⟩

@[simp]
theorem length_swapPorts (t : TransportHeader) :
    t.swapPorts.bytes.length = t.bytes.length := by
  cases t with
  | tcp h => exact h.length_swapPorts
  | udp h => exact h.length_swapPorts

@[simp]
theorem length_dropOptions (t : TransportHeader) :
    t.dropOptions.bytes.length = t.bytes.length := by
  cases t with
  | tcp h => exact TcpHeader.length_write ..
  | udp h => rfl

theorem headerLength_dropOptions (t : TransportHeader) :
    t.dropOptions.headerLength = t.protocol.minHeader := by
  cases t with
  | tcp h => exact congrArg TcpHeader.Fields.headerLength h.fields_dropOptions
  | udp h => rfl

theorem alike_setPayloadLength {length : UInt16} (h : t.setPayloadLength length = .ok t') :
    t.Alike t' := by
  cases t with
  | tcp header =>
    cases h
    exact .refl _
  | udp header =>
    simp only [setPayloadLength, checked_map_eq_ok] at h
    obtain ⟨header', hs, rfl⟩ := h
    obtain ⟨hf, hl⟩ := UdpHeader.fields_setPayloadLength hs
    exact .udp hf hl

theorem alike_updateChecksum {source destination : UInt32} {payload : Bytes}
    (h : t.updateChecksum source destination payload = .ok t') : t.Alike t' := by
  cases t with
  | tcp header =>
    simp only [updateChecksum, checked_map_eq_ok] at h
    obtain ⟨header', hu, rfl⟩ := h
    obtain ⟨⟨checksum, hf⟩, hl⟩ := TcpHeader.fields_updateChecksum hu
    exact .tcp hf hl
  | udp header =>
    cases h
    exact .udp header.fields_clearChecksum (UdpHeader.length_write ..)

end TunnelRelay.TransportHeader
