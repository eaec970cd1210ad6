import TunnelRelay.Proofs.Packet.Parsing

/-!
# Packets that answer a flow

Whatever a flow sends to the device is one valid packet of the tunnel, and its key is the flow's own,
turned around.
-/

namespace TunnelRelay

/-- The bytes are one valid packet, which goes back where packets with this key come from. -/
structure Answers (key : FlowKey) (bytes : Bytes) : Prop where
  whole : Whole bytes
  parsed : ∃ packet, Packet.ofBytes bytes = .ok packet ∧ packet.isValid = true ∧
    FlowKey.ofPacket packet = .ok (some key.reverse)

namespace Reply

def key (r : Reply) : FlowKey where
  protocol := r.transport.protocol
  source := ⟨r.ipv4.source, r.transport.sourcePort⟩
  destination := ⟨r.ipv4.destination, r.transport.destinationPort⟩

variable {r r' : Reply} {key : FlowKey} {payload bytes : Bytes} {packet request : Packet}

/-- The reply puts together packets that answer the key. -/
structure Suits (r : Reply) (key : FlowKey) : Prop where
  plain : Plain r.ipv4 r.transport
  key_eq : r.key = key.reverse

theorem Suits.congr (h : r.Suits key) (ipv4 : r'.ipv4 = r.ipv4)
    (transport : r'.transport = r.transport) : r'.Suits key := by
  obtain ⟨plain, key_eq⟩ := h
  unfold Reply.key at key_eq
  rw [← ipv4, ← transport] at plain key_eq
  exact ⟨plain, key_eq⟩

theorem Carries.answers (hc : r.Carries payload packet) (h : r.Suits key) :
    Answers key packet.bytes := by
  obtain ⟨ipv4, transport, rfl, plain, total, alike, source, destination⟩ := hc.inv h.plain
  have front : ipv4.bytes.length = ipv4MinHeader := plain.ipv4_length
  have header : ipv4MinHeader = 20 := rfl
  have declared : declaredLength? ipv4.bytes = some ipv4.totalLength := if_neg (by omega)
  refine ⟨⟨?_, ?_⟩, _, hc.ofBytes_eq h.plain, rfl, ?_⟩
  · rw [Packet.length] at total
    rw [← total, Packet.ofParts, List.append_assoc, declaredLength?_append (by omega), declared]
    rfl
  · simp only [Packet.ofParts, List.length_append]
    omega
  · have same : (⟨transport.protocol, ⟨ipv4.source, transport.sourcePort⟩,
        ⟨ipv4.destination, transport.destinationPort⟩⟩ : FlowKey) = key.reverse := by
      rw [alike.protocol_eq, alike.sourcePort_eq, alike.destinationPort_eq, source, destination]
      exact h.key_eq
    rw [(Packet.views_ofParts plain).key_eq, same]

/-- A reply starts with the fixed parts of the request's headers, turned around. -/
theorem ofRequest_inv {ipv4 : Ipv4Header} {transport : TransportHeader}
    (v : request.Views ipv4 transport payload) (h : ofRequest request = .ok (some r)) :
    (r.ipv4.source = ipv4.destination ∧ r.ipv4.destination = ipv4.source) ∧
      ∃ front : TransportHeader, front.protocol = transport.protocol ∧
        (∃ back, transport.bytes = front.bytes ++ back) ∧
        r.transport = front.swapPorts.dropOptions := by
  simp only [ofRequest, v.transportHeader_eq, v.ipv4_eq, ok_bind, checked_bind_eq_ok, checked_pure_eq_ok,
    Option.some.injEq] at h
  obtain ⟨first, sliced, start, viewed, ipv4', declared, middle, sliced', front, viewed', rfl⟩ := h
  obtain rfl := Ipv4Header.ofBytes_eq_ok_iff.1 viewed
  obtain ⟨protocol, rfl⟩ := TransportHeader.ofBytes_eq_ok_iff.1 viewed'
  constructor
  · have same : ipv4.fields = start.fields := by
      apply Ipv4Header.fields_eq_of_append (ipv4.bytes.drop ipv4MinHeader)
      rw [eq_take_of_slice sliced, v.bytes_eq, List.append_assoc,
        List.take_append_of_le_length ipv4.complete, List.take_append_drop]
    have fields := ipv4'.fields_swapAddresses
    rw [(Ipv4Header.fields_setHeaderLength declared).1, ← same] at fields
    have kept := (Ipv4Header.fields_setHeaderLength declared).1
    rw [← same] at kept
    exact ⟨(congrArg Ipv4Header.Fields.source fields).trans (congrArg Ipv4Header.Fields.destination kept),
      (congrArg Ipv4Header.Fields.destination fields).trans (congrArg Ipv4Header.Fields.source kept)⟩
  · refine ⟨front, protocol, ⟨transport.bytes.drop transport.protocol.minHeader, ?_⟩, rfl⟩
    have part := slice_append_right ipv4.bytes (transport.bytes.take transport.protocol.minHeader)
      (transport.bytes.drop transport.protocol.minHeader ++ payload) v.ipv4_whole rfl
    rw [List.length_take_of_le transport.minHeader_le, List.append_assoc,
      ← List.append_assoc (transport.bytes.take _), List.take_append_drop, ← List.append_assoc,
      ← v.bytes_eq] at part
    rw [Except.ok.inj (sliced'.symm.trans part), List.take_append_drop]

/-- Only a packet that can be routed has a reply. -/
theorem views_of_ofRequest (parsed : Packet.ofBytes bytes = .ok request)
    (h : ofRequest request = .ok (some r)) :
    ∃ ipv4 transport payload, request.Views ipv4 transport payload := by
  obtain ⟨-, named⟩ := plain_of_ofRequest parsed h
  rw [Packet.protocol, Option.map_eq_some_iff] at named
  obtain ⟨_, found, -⟩ := named
  exact Packet.views_of_ofBytes parsed (by simp [Packet.isValid, found])

/-- The replies to a packet with a key answer that key. -/
theorem suits_of_ofRequest (parsed : Packet.ofBytes bytes = .ok request)
    (routed : FlowKey.ofPacket request = .ok (some key))
    (h : ofRequest request = .ok (some r)) : r.Suits key := by
  obtain ⟨plain, -⟩ := plain_of_ofRequest parsed h
  obtain ⟨ipv4, transport, payload, v⟩ := views_of_ofRequest parsed h
  obtain ⟨⟨source, destination⟩, front, protocol, ⟨back, split⟩, turned⟩ := ofRequest_inv v h
  obtain ⟨sourcePort, destinationPort⟩ :=
    TransportHeader.ports_eq_of_append back protocol.symm split
  rw [v.key_eq, Except.ok.injEq, Option.some.injEq] at routed
  subst routed
  refine ⟨plain, ?_⟩
  simp only [Reply.key, FlowKey.reverse, turned, TransportHeader.protocol_dropOptions,
    TransportHeader.protocol_swapPorts, TransportHeader.ports_dropOptions, TransportHeader.ports_swapPorts,
    source, destination, protocol, sourcePort, destinationPort]

end Reply

end TunnelRelay
