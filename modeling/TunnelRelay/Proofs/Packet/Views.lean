import TunnelRelay.FlowKey
import TunnelRelay.Proofs.Header.Checksums

/-!
# The parts of a packet

A packet that the relay can route is an IPv4 header, a transport header and a payload, each as long as it
is declared to be. Everything that can be read of it is read off these parts.
-/

namespace TunnelRelay.Packet

/-- The packet consists of these parts, one after the other. -/
structure Views (p : Packet) (ipv4 : Ipv4Header) (transport : TransportHeader) (payload : Bytes) :
    Prop where
  bytes_eq : p.bytes = ipv4.bytes ++ transport.bytes ++ payload
  routed : p.transport = some (transport.protocol, transport.bytes.length)
  ipv4_whole : ipv4.headerLength = ipv4.bytes.length
  transport_whole : transport.headerLength = transport.bytes.length

variable {p : Packet} {ipv4 ipv4' : Ipv4Header} {transport transport' : TransportHeader} {payload : Bytes}

namespace Views

theorem isValid (v : p.Views ipv4 transport payload) : p.isValid = true := by
  simp [Packet.isValid, v.routed]

theorem protocol_eq (v : p.Views ipv4 transport payload) : p.protocol = some transport.protocol := by
  simp [Packet.protocol, v.routed]

theorem length_eq (v : p.Views ipv4 transport payload) :
    p.length = ipv4.bytes.length + transport.bytes.length + payload.length := by
  simp [Packet.length, v.bytes_eq, Nat.add_assoc]

theorem ipv4Length_eq (v : p.Views ipv4 transport payload) : p.ipv4Length = .ok ipv4.bytes.length := by
  obtain ⟨viewed, found, same⟩ := ipv4.ofBytes_append (transport.bytes ++ payload)
  rw [ipv4Length, if_pos v.isValid, v.bytes_eq, List.append_assoc, found, ← v.ipv4_whole]
  exact congrArg (Except.ok ∘ Ipv4Header.Fields.headerLength) same

theorem slice_ipv4 (v : p.Views ipv4 transport payload) :
    slice p.bytes 0 ipv4.bytes.length = .ok ipv4.bytes := by
  have part := slice_append_right [] ipv4.bytes (transport.bytes ++ payload) rfl
    (Nat.zero_add ipv4.bytes.length).symm
  rwa [List.nil_append, ← List.append_assoc, ← v.bytes_eq] at part

theorem slice_transport (v : p.Views ipv4 transport payload) :
    slice p.bytes ipv4.bytes.length (ipv4.bytes.length + transport.bytes.length) =
      .ok transport.bytes := by
  rw [v.bytes_eq]
  exact slice_append_right ipv4.bytes transport.bytes payload rfl rfl

theorem drop_headers (v : p.Views ipv4 transport payload) :
    p.bytes.drop (ipv4.bytes.length + transport.bytes.length) = payload := by
  rw [v.bytes_eq, ← List.length_append, List.drop_left]

theorem ipv4_eq (v : p.Views ipv4 transport payload) : p.ipv4 = .ok ipv4 := by
  rw [Packet.ipv4, v.ipv4Length_eq, ok_bind, v.slice_ipv4, ok_bind, ipv4.ofBytes_eq]

theorem transportHeader_eq (v : p.Views ipv4 transport payload) :
    p.transportHeader = .ok (some transport) := by
  rw [Packet.transportHeader, v.routed]
  dsimp only
  rw [v.ipv4Length_eq, ok_bind, v.slice_transport, ok_bind, transport.ofBytes_eq]
  rfl

private theorem transportAt_append (front : Bytes) (whole : transport.headerLength = transport.bytes.length) :
    transportAt (front ++ (transport.bytes ++ payload)) transport.protocol.number front.length =
      .ok (some (transport.protocol, transport.bytes.length)) := by
  unfold transportAt
  rw [Protocol.ofNumber?_eq_some_iff.2 rfl, List.drop_left]
  simp only [List.length_append, Nat.add_sub_cancel_left]
  cases transport with
  | tcp header =>
    obtain ⟨header', viewed, same⟩ := header.ofBytes_append payload
    replace whole : header.headerLength = header.bytes.length := whole
    have declared : header'.headerLength = header.bytes.length :=
      (congrArg TcpHeader.Fields.headerLength same).trans whole
    have complete := header.complete
    simp only [TransportHeader.protocol, TransportHeader.bytes, viewed, ok_bind, declared, complete,
      Nat.le_add_right_of_le, Nat.le_add_right, if_true, and_self]
    rfl
  | udp header =>
    replace whole : udpHeaderLength = header.bytes.length := whole
    simp [TransportHeader.protocol, TransportHeader.bytes, ← whole]

/-- Parts that name each other are found again by judging the bytes. -/
theorem ofBytes_eq (v : p.Views ipv4 transport payload) (version : ipv4.version = 4)
    (number : ipv4.protocol = transport.protocol.number)
    (total : ipv4.totalLength.toNat = p.length) : ofBytes p.bytes = .ok p := by
  obtain ⟨header, viewed, same⟩ := ipv4.ofBytes_append (transport.bytes ++ payload)
  have total' : header.totalLength.toNat = p.bytes.length :=
    (congrArg (UInt16.toNat ∘ Ipv4Header.Fields.totalLength) same).trans total
  have version' : header.version = 4 := (congrArg Ipv4Header.Fields.version same).trans version
  have number' : header.protocol = transport.protocol.number :=
    (congrArg Ipv4Header.Fields.protocol same).trans number
  have declared : header.headerLength = ipv4.bytes.length :=
    (congrArg Ipv4Header.Fields.headerLength same).trans v.ipv4_whole
  have complete := ipv4.complete
  have inside : ipv4.bytes.length ≤ p.bytes.length := by
    simp only [v.bytes_eq, List.length_append]
    omega
  have checked : require (header.totalLength.toNat = p.bytes.length) .assertion = .ok () :=
    require_eq_ok.2 total'
  have found : transportAt p.bytes transport.protocol.number ipv4.bytes.length = .ok p.transport := by
    rw [v.bytes_eq, v.routed, List.append_assoc, transportAt_append _ v.transport_whole]
  rw [← List.append_assoc, ← v.bytes_eq] at viewed
  rw [ofBytes, if_neg (by omega), viewed, ok_bind, checked, ok_bind,
    if_pos ⟨version', by omega, by omega⟩, number', declared, found]
  rfl

theorem payload_eq (v : p.Views ipv4 transport payload) : p.payload = .ok (some payload) := by
  have back := slice_append_right (ipv4.bytes ++ transport.bytes) payload []
    List.length_append.symm v.length_eq
  rw [List.append_nil, ← v.bytes_eq] at back
  rw [Packet.payload, v.routed]
  dsimp only
  rw [v.ipv4Length_eq, ok_bind, back]
  rfl

/-- The flow of a packet is named by the addresses and ports of its headers. -/
theorem key_eq (v : p.Views ipv4 transport payload) :
    FlowKey.ofPacket p = .ok (some ⟨transport.protocol, ⟨ipv4.source, transport.sourcePort⟩,
      ⟨ipv4.destination, transport.destinationPort⟩⟩) := by
  rw [FlowKey.ofPacket, v.transportHeader_eq, ok_bind]
  dsimp only
  rw [v.ipv4_eq]
  rfl

/-- New checksums are written into the headers, first into the outer one. -/
theorem withChecksums_eq (v : p.Views ipv4 transport payload) :
    p.withChecksums = do
      let ipv4 ← ipv4.updateChecksum
      let transport ← transport.updateChecksum ipv4.source ipv4.destination payload
      return { p with bytes := ipv4.bytes ++ transport.bytes ++ payload } := by
  rw [withChecksums, v.routed]
  dsimp only
  rw [v.ipv4Length_eq, ok_bind, v.slice_ipv4, ok_bind, ipv4.ofBytes_eq, ok_bind, v.slice_transport,
    v.drop_headers]
  simp only [ok_bind, transport.ofBytes_eq]

/-- The parts of a packet with new checksums are the updated headers and the payload. -/
theorem updated (v : p.Views ipv4 transport payload) (outer : ipv4.updateChecksum = .ok ipv4')
    (inner : transport.updateChecksum ipv4'.source ipv4'.destination payload = .ok transport') :
    Views { p with bytes := ipv4'.bytes ++ transport'.bytes ++ payload } ipv4' transport' payload where
  bytes_eq := rfl
  routed := by
    have alike := TransportHeader.alike_updateChecksum inner
    rw [alike.protocol_eq, alike.length_eq]
    exact v.routed
  ipv4_whole := by
    obtain ⟨⟨_, fields_eq⟩, length_eq⟩ := Ipv4Header.fields_updateChecksum outer
    rw [length_eq, ← v.ipv4_whole]
    exact congrArg Ipv4Header.Fields.headerLength fields_eq
  transport_whole := by
    have alike := TransportHeader.alike_updateChecksum inner
    rw [alike.headerLength_eq, alike.length_eq, v.transport_whole]

/-- With its new checksums the packet verifies. -/
theorem withChecksums_verifies (v : p.Views ipv4 transport payload)
    (short : p.length ≤ maxPacketLength) :
    ∃ ipv4' transport', ipv4.updateChecksum = .ok ipv4' ∧
      transport.updateChecksum ipv4'.source ipv4'.destination payload = .ok transport' ∧
      p.withChecksums =
        .ok { p with bytes := ipv4'.bytes ++ transport'.bytes ++ payload } ∧
      Checksum.Verifies ipv4'.bytes ∧
      transport'.Verifies ipv4'.source ipv4'.destination payload := by
  rw [v.length_eq] at short
  obtain ⟨ipv4', updated, verifies⟩ := ipv4.updateChecksum_verifies v.ipv4_whole
  obtain ⟨transport', updated', verifies'⟩ := transport.updateChecksum_verifies ipv4'.source
    ipv4'.destination v.transport_whole (show _ + payload.length ≤ _ by omega)
  refine ⟨ipv4', transport', updated, updated', ?_, verifies, verifies'⟩
  rw [v.withChecksums_eq, updated, ok_bind, updated']
  rfl

end Views

end TunnelRelay.Packet
