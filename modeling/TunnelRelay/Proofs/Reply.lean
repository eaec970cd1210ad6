import TunnelRelay.Proofs.Packet
import TunnelRelay.Reply

/-!
# What a packet for the device says

The packets that a reply puts together carry its headers, up to lengths and checksums, and the
payload that was put into the slab.
-/

namespace TunnelRelay

/-- A packet that the relay can route has a header of version 4 that names its protocol. -/
theorem Packet.ofBytes_inv {bytes : Bytes} {packet : Packet} {protocol : Protocol} {length : Nat}
    (hp : Packet.ofBytes bytes = .ok packet) (ht : packet.transport = some (protocol, length)) :
    packet.bytes = bytes ∧ ∃ header, Ipv4Header.ofBytes bytes = .ok header ∧ header.version = 4 ∧
      header.protocol = protocol.number := by
  unfold ofBytes at hp
  split at hp
  · cases hp
    cases ht
  · simp only [checked_bind_eq_ok] at hp
    obtain ⟨header, hh, _, -, hp⟩ := hp
    split at hp
    · next hv =>
      simp only [checked_bind_eq_ok, checked_pure_eq_ok] at hp
      obtain ⟨found, hf, rfl⟩ := hp
      subst ht
      refine ⟨rfl, header, hh, hv.1, Protocol.ofNumber?_eq_some_iff.1 ?_⟩
      unfold transportAt at hf
      dsimp only at hf
      split at hf
      · cases hf
      · next hn =>
        split at hf
        · simp only [checked_bind_eq_ok, checked_pure_eq_ok] at hf
          obtain ⟨_, -, hf⟩ := hf
          split at hf <;> cases hf
          exact hn
        · cases hf
      · next hn =>
        split at hf <;> cases hf
        exact hn
    · cases hp
      cases ht

theorem Packet.transport_of_transportHeader {packet : Packet} {header : TransportHeader}
    (h : packet.transportHeader = .ok (some header)) :
    ∃ length, packet.transport = some (header.protocol, length) := by
  unfold transportHeader at h
  split at h
  · cases h
  · next protocol length ht =>
    simp only [checked_bind_eq_ok, checked_map_eq_ok, Option.some.injEq] at h
    obtain ⟨_, -, _, -, _, ho, rfl⟩ := h
    have declared := (TransportHeader.ofBytes_eq_ok_iff.1 ho).1
    exact ⟨length, declared ▸ ht⟩

namespace Reply

variable {r r' : Reply} {payload : Bytes} {packet : Packet}

/-- The packet has the headers of the reply, up to lengths and checksums, and the payload. -/
structure Carries (r : Reply) (payload : Bytes) (packet : Packet) : Prop where
  parts : ∃ ipv4 transport checksum, packet = .ofParts ipv4 transport payload ∧
    ipv4.bytes.length = r.ipv4.bytes.length ∧
    ipv4.fields = { r.ipv4.fields with totalLength := packet.length.toUInt16, checksum } ∧
    r.transport.Alike transport
  length_lt : packet.length < 0x10000

theorem length_headers (hr : Plain r.ipv4 r.transport) :
    r.headers.length = ipv4MinHeader + r.transport.protocol.minHeader := by
  rw [headers, List.length_append, hr.ipv4_length, hr.transport_length]

theorem slice_front (hr : Plain r.ipv4 r.transport) :
    slice (r.headers ++ payload) 0 ipv4MinHeader = .ok r.ipv4.bytes := by
  have part := slice_append_right [] r.ipv4.bytes (r.transport.bytes ++ payload) rfl
    (show ipv4MinHeader = 0 + r.ipv4.bytes.length by rw [hr.ipv4_length, Nat.zero_add])
  rwa [List.nil_append, ← List.append_assoc] at part

theorem slice_middle (hr : Plain r.ipv4 r.transport) :
    slice (r.headers ++ payload) ipv4MinHeader r.headers.length = .ok r.transport.bytes :=
  slice_append_right r.ipv4.bytes r.transport.bytes payload hr.ipv4_length.symm
    ((length_headers hr).trans (congrArg (ipv4MinHeader + ·) hr.transport_length.symm))

/-- The packet that the headers of a reply make with a payload. -/
def compose (r : Reply) (payload : Bytes) : Checked Packet := do
  let length ← narrow16 payload.length
  let total ← narrow16 (r.headers.length + payload.length)
  let transport ← r.transport.setPayloadLength length
  let ipv4 ← (r.ipv4.setTotalLength total).updateChecksum
  let transport ← transport.updateChecksum ipv4.source ipv4.destination payload
  return .ofParts ipv4 transport payload

theorem plain_setTotalLength (hr : Plain r.ipv4 r.transport) (total : UInt16)
    {transport : TransportHeader} (alike : r.transport.Alike transport) :
    Plain (r.ipv4.setTotalLength total) transport :=
  have fields := r.ipv4.fields_setTotalLength total
  hr.alike (Ipv4Header.length_write ..) (congrArg Ipv4Header.Fields.version fields)
    (congrArg Ipv4Header.Fields.headerLength fields) (congrArg Ipv4Header.Fields.protocol fields) alike

theorem plain_updateChecksum {ipv4 ipv4' : Ipv4Header} {transport transport' : TransportHeader}
    {source destination : UInt32} (plain : Plain ipv4 transport) (hi : ipv4.updateChecksum = .ok ipv4')
    (hu : transport.updateChecksum source destination payload = .ok transport') :
    Plain ipv4' transport' := by
  obtain ⟨⟨checksum, hf⟩, hl⟩ := Ipv4Header.fields_updateChecksum hi
  exact plain.alike hl (congrArg Ipv4Header.Fields.version hf)
    (congrArg Ipv4Header.Fields.headerLength hf) (congrArg Ipv4Header.Fields.protocol hf)
    (TransportHeader.alike_updateChecksum hu)

/-- A packet is completed from headers and payload alone: what else the slab holds does not matter. -/
theorem complete_eq (hr : Plain r.ipv4 r.transport) {slab : Slab}
    (hs : slab.filled = r.headers ++ payload) :
    r.complete slab =
      (fun packet => (packet, { slab with filled := packet.bytes })) <$> r.compose payload := by
  have length : slab.length = r.headers.length + payload.length := by
    rw [Slab.length, hs, List.length_append]
  have front : slice slab.filled 0 ipv4MinHeader = .ok r.ipv4.bytes := by rw [hs, slice_front hr]
  have middle : slice slab.filled ipv4MinHeader r.headers.length = .ok r.transport.bytes := by
    rw [hs, slice_middle hr]
  have rest : slab.filled.drop r.headers.length = payload := by rw [hs, List.drop_left]
  unfold complete compose
  dsimp only
  rw [require_eq_ok.2 (by omega), ok_bind, front, middle, rest, length, Nat.add_sub_cancel_left]
  -- From here on both sides take the same steps, and stop at the same fault if one fails.
  cases hn : narrow16 payload.length with
  | error fault => rfl
  | ok n =>
  cases ht : narrow16 (r.headers.length + payload.length) with
  | error fault => rfl
  | ok total =>
  simp only [ok_bind, r.ipv4.ofBytes_eq, r.transport.ofBytes_eq]
  cases hp : r.transport.setPayloadLength n with
  | error fault => rfl
  | ok transport =>
  have alike := TransportHeader.alike_setPayloadLength hp
  have plain := plain_setTotalLength hr total alike
  have whole : (r.ipv4.setTotalLength total).totalLength.toNat =
      (Packet.ofParts (r.ipv4.setTotalLength total) transport payload).length := by
    rw [Packet.length_ofParts plain, alike.protocol_eq, ← length_headers hr, ← narrow16_eq_ok_iff.1 ht]
    exact congrArg (UInt16.toNat ∘ Ipv4Header.Fields.totalLength) (r.ipv4.fields_setTotalLength total)
  have parsed : Packet.ofBytes ((r.ipv4.setTotalLength total).bytes ++ transport.bytes ++ payload) =
      .ok (.ofParts (r.ipv4.setTotalLength total) transport payload) :=
    Packet.ofBytes_ofParts plain whole
  rw [ok_bind, parsed, ok_bind, (Packet.views_ofParts plain).withChecksums_eq, ok_bind]
  cases hi : (r.ipv4.setTotalLength total).updateChecksum with
  | error fault => rfl
  | ok ipv4 =>
  rw [ok_bind, ok_bind]
  cases hu : transport.updateChecksum ipv4.source ipv4.destination payload with
  | error fault => rfl
  | ok transport' =>
  have same := (TransportHeader.alike_updateChecksum hu).protocol_eq
  simp only [ok_bind, Packet.ofParts, same]
  rfl

theorem carries_of_compose (hr : Plain r.ipv4 r.transport) (hc : r.compose payload = .ok packet) :
    r.Carries payload packet := by
  simp only [compose, checked_bind_eq_ok, checked_pure_eq_ok] at hc
  obtain ⟨_, -, total, ht, transport, hp, ipv4, hi, transport', hu, rfl⟩ := hc
  have alike := TransportHeader.alike_setPayloadLength hp
  have alike' := TransportHeader.alike_updateChecksum hu
  obtain ⟨⟨checksum, hf⟩, hl⟩ := Ipv4Header.fields_updateChecksum hi
  have plain' := plain_updateChecksum (plain_setTotalLength hr total alike) hi hu
  have packet_length : (Packet.ofParts ipv4 transport' payload).length = total.toNat := by
    rw [Packet.length_ofParts plain', (alike.trans alike').protocol_eq, ← length_headers hr,
      ← narrow16_eq_ok_iff.1 ht]
  refine ⟨⟨ipv4, transport', checksum, rfl, hl.trans (Ipv4Header.length_write ..), ?_,
    alike.trans alike'⟩, ?_⟩
  · rw [packet_length, hf, r.ipv4.fields_setTotalLength total]
    simp
  · rw [packet_length]
    exact total.toNat_lt

theorem complete_inv (hr : Plain r.ipv4 r.transport) {slab slab' : Slab}
    (hs : slab.filled = r.headers ++ payload) (hc : r.complete slab = .ok (packet, slab')) :
    r.Carries payload packet ∧ slab' = { slab with filled := packet.bytes } := by
  rw [complete_eq hr hs, checked_map_eq_ok] at hc
  obtain ⟨packet, composed, ⟨⟩⟩ := hc
  exact ⟨carries_of_compose hr composed, rfl⟩

theorem Carries.inv (hr : Plain r.ipv4 r.transport) (hc : r.Carries payload packet) :
    ∃ ipv4 transport, packet = .ofParts ipv4 transport payload ∧ Plain ipv4 transport ∧
      ipv4.totalLength.toNat = packet.length ∧ r.transport.Alike transport ∧
      ipv4.source = r.ipv4.source ∧ ipv4.destination = r.ipv4.destination := by
  obtain ⟨ipv4, transport, checksum, rfl, hl, hf, alike⟩ := hc.parts
  refine ⟨ipv4, transport, rfl, ?_, ?_, alike, congrArg Ipv4Header.Fields.source hf,
    congrArg Ipv4Header.Fields.destination hf⟩
  · exact hr.alike hl (congrArg Ipv4Header.Fields.version hf)
      (congrArg Ipv4Header.Fields.headerLength hf) (congrArg Ipv4Header.Fields.protocol hf) alike
  · have total := congrArg Ipv4Header.Fields.totalLength hf
    change ipv4.totalLength = _ at total
    rw [total]
    exact Nat.mod_eq_of_lt hc.length_lt

/-- A packet for the device is found to be what it was put together as. -/
theorem Carries.ofBytes_eq (hr : Plain r.ipv4 r.transport) (hc : r.Carries payload packet) :
    Packet.ofBytes packet.bytes = .ok packet := by
  obtain ⟨ipv4, transport, rfl, plain, total, -⟩ := hc.inv hr
  exact Packet.ofBytes_ofParts plain total

theorem Carries.payload_eq (hr : Plain r.ipv4 r.transport) (hc : r.Carries payload packet) :
    packet.payload = .ok (some payload) := by
  obtain ⟨ipv4, transport, rfl, plain, -, -⟩ := hc.inv hr
  exact (Packet.views_ofParts plain).payload_eq

theorem Carries.transportHeader_eq (hr : Plain r.ipv4 r.transport)
    (hc : r.Carries payload packet) :
    ∃ transport, packet.transportHeader = .ok (some transport) ∧ r.transport.Alike transport := by
  obtain ⟨ipv4, transport, rfl, plain, -, alike, -, -⟩ := hc.inv hr
  exact ⟨transport, (Packet.views_ofParts plain).transportHeader_eq, alike⟩

theorem withoutPayload_inv (hr : Plain r.ipv4 r.transport)
    (h : r.withoutPayload = .ok (packet, r')) :
    r.Carries [] packet ∧ ∃ control, r' = { r with control } := by
  simp only [withoutPayload, checked_bind_eq_ok, checked_pure_eq_ok] at h
  obtain ⟨slab, hp, ⟨packet, control⟩, hc, ⟨⟩⟩ := h
  obtain ⟨filled, -⟩ := Slab.filled_of_put hp
  obtain ⟨carries, -⟩ := complete_inv hr (filled.trans (List.append_nil _).symm) hc
  exact ⟨carries, control, rfl⟩

theorem reserve_inv {limit size : Nat} (h : r.reserve limit = .ok (size, r')) :
    size = min limit r.maxPayload ∧ ∃ data, r' = { r with data } ∧ data.filled = r.headers := by
  simp only [reserve, checked_bind_eq_ok, checked_pure_eq_ok] at h
  obtain ⟨data, hp, _, -, ⟨⟩⟩ := h
  exact ⟨rfl, data, rfl, (Slab.filled_of_put hp).1⟩

/-- What is committed behind the headers becomes the payload. -/
theorem commit_completeData_inv (hr : Plain r.ipv4 r.transport) (hf : r.data.filled = r.headers)
    {r'' : Reply} (hc : r.commit payload payload.length = .ok r')
    (hd : r'.completeData = .ok (packet, r'')) :
    r.Carries payload packet ∧ ∃ data, r'' = { r with data } ∧ data.filled = packet.bytes := by
  simp only [commit, checked_bind_eq_ok, checked_pure_eq_ok] at hc
  obtain ⟨laid, hl, data, ha, rfl⟩ := hc
  simp only [completeData, checked_bind_eq_ok, checked_pure_eq_ok] at hd
  obtain ⟨⟨packet, data'⟩, hd, ⟨⟩⟩ := hd
  obtain ⟨hfilled, hahead, -⟩ := Slab.ahead_of_lay hl
  have filled : data.filled = r.headers ++ payload := by
    rw [(Slab.filled_of_advance ha).1, hfilled, hahead, hf]
  obtain ⟨carries, rfl⟩ := complete_inv (r := { r with data }) hr filled hd
  exact ⟨⟨carries.parts, carries.length_lt⟩, _, rfl, rfl⟩

/-- The headers of a reply have no options, whatever the request had. -/
theorem plain_of_ofRequest {bytes : Bytes} {request : Packet}
    (hp : Packet.ofBytes bytes = .ok request) (h : ofRequest request = .ok (some r)) :
    Plain r.ipv4 r.transport ∧ request.protocol = some r.transport.protocol := by
  simp only [ofRequest, checked_bind_eq_ok] at h
  obtain ⟨found, hf, h⟩ := h
  cases found with
  | none => simp at h
  | some header =>
    simp only [checked_bind_eq_ok, checked_pure_eq_ok, Option.some.injEq] at h
    obtain ⟨whole, hw, front, hfront, ipv4, hi, ipv4', hs, middle, hm, transport, ht, rfl⟩ := h
    have front_length := length_of_slice hfront
    have middle_length := length_of_slice hm
    have front_eq := eq_take_of_slice hfront
    obtain ⟨length, ht'⟩ := Packet.transport_of_transportHeader hf
    obtain ⟨hb, first, hfirst, version, number⟩ := Packet.ofBytes_inv hp ht'
    have hbytes := Ipv4Header.ofBytes_eq_ok_iff.1 hi
    obtain ⟨hprotocol, hmiddle⟩ := TransportHeader.ofBytes_eq_ok_iff.1 ht
    have same : first.fields = ipv4.fields := by
      apply Ipv4Header.fields_eq_of_append (request.bytes.drop ipv4MinHeader)
      rw [hbytes, Ipv4Header.ofBytes_eq_ok_iff.1 hfirst, ← hb, front_eq]
      exact (List.take_append_drop _ _).symm
    obtain ⟨fields, hl⟩ := Ipv4Header.fields_setHeaderLength hs
    have swapped := ipv4'.fields_swapAddresses
    rw [fields, ← same] at swapped
    have plain : Plain ipv4'.swapAddresses transport.swapPorts.dropOptions := {
      ipv4_length := by rw [Ipv4Header.length_swapAddresses, hl, hbytes, front_length, Nat.sub_zero]
      version_eq := (congrArg Ipv4Header.Fields.version swapped).trans version
      ipv4_declared := congrArg Ipv4Header.Fields.headerLength swapped
      protocol_eq := by
        refine (congrArg Ipv4Header.Fields.protocol swapped).trans (number.trans ?_)
        simp [hprotocol]
      transport_length := by simp [hmiddle, hprotocol, middle_length]
      transport_declared := by
        rw [TransportHeader.headerLength_dropOptions]
        simp }
    exact ⟨plain, by simp [Packet.protocol, ht', hprotocol]⟩

end Reply

end TunnelRelay
