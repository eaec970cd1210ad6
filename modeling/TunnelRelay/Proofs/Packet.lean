import TunnelRelay.Proofs.Packet.Views

/-!
# Packets put together from parts

Two headers without options and a payload make a packet in which exactly these parts are found again.
-/

namespace TunnelRelay

/-- Two headers without options, the first of which announces the second. -/
structure Plain (ipv4 : Ipv4Header) (transport : TransportHeader) : Prop where
  ipv4_length : ipv4.bytes.length = ipv4MinHeader
  version_eq : ipv4.version = 4
  ipv4_declared : ipv4.headerLength = ipv4MinHeader
  protocol_eq : ipv4.protocol = transport.protocol.number
  transport_length : transport.bytes.length = transport.protocol.minHeader
  transport_declared : transport.headerLength = transport.protocol.minHeader

theorem Plain.alike {ipv4 ipv4' : Ipv4Header} {transport transport' : TransportHeader}
    (h : Plain ipv4 transport) (hl : ipv4'.bytes.length = ipv4.bytes.length)
    (hv : ipv4'.version = ipv4.version)
    (hd : ipv4'.headerLength = ipv4.headerLength) (hp : ipv4'.protocol = ipv4.protocol)
    (ht : transport.Alike transport') : Plain ipv4' transport' where
  ipv4_length := hl.trans h.ipv4_length
  version_eq := hv.trans h.version_eq
  ipv4_declared := hd.trans h.ipv4_declared
  protocol_eq := by rw [hp, ht.protocol_eq, h.protocol_eq]
  transport_length := by rw [ht.length_eq, ht.protocol_eq, h.transport_length]
  transport_declared := by rw [ht.headerLength_eq, ht.protocol_eq, h.transport_declared]

namespace Packet

variable {ipv4 : Ipv4Header} {transport : TransportHeader} {payload : Bytes}

/-- The packet of two headers without options and a payload. -/
def ofParts (ipv4 : Ipv4Header) (transport : TransportHeader) (payload : Bytes) : Packet where
  bytes := ipv4.bytes ++ transport.bytes ++ payload
  transport := some (transport.protocol, transport.protocol.minHeader)

/-- The parts are found again. -/
theorem views_ofParts (h : Plain ipv4 transport) :
    (ofParts ipv4 transport payload).Views ipv4 transport payload where
  bytes_eq := rfl
  routed := by rw [h.transport_length]; rfl
  ipv4_whole := h.ipv4_declared.trans h.ipv4_length.symm
  transport_whole := h.transport_declared.trans h.transport_length.symm

theorem length_ofParts (h : Plain ipv4 transport) :
    (ofParts ipv4 transport payload).length =
      ipv4MinHeader + transport.protocol.minHeader + payload.length := by
  rw [(views_ofParts h).length_eq, h.ipv4_length, h.transport_length]

/-- The parts make a packet that the relay can route. -/
theorem ofBytes_ofParts (h : Plain ipv4 transport)
    (hl : ipv4.totalLength.toNat = (ofParts ipv4 transport payload).length) :
    ofBytes (ofParts ipv4 transport payload).bytes = .ok (ofParts ipv4 transport payload) :=
  (views_ofParts h).ofBytes_eq h.version_eq h.protocol_eq hl

theorem bytes_of_ofBytes {bytes : Bytes} {packet : Packet}
    (h : ofBytes bytes = .ok packet) : packet.bytes = bytes := by
  unfold ofBytes at h
  split at h
  · cases h
    rfl
  · simp only [checked_bind_eq_ok] at h
    obtain ⟨_, -, _, -, h⟩ := h
    split at h
    · simp only [checked_bind_eq_ok, checked_pure_eq_ok] at h
      obtain ⟨_, -, rfl⟩ := h
      rfl
    · cases h
      rfl

end Packet

end TunnelRelay
