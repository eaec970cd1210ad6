import TunnelRelay.Proofs.Reading

/-!
# Which packets can be relayed

A packet declares its version, its protocol and the lengths of its headers in fields that can contradict
each other. It is found valid exactly if they agree with its bytes, and then its parts are all of it.
-/

namespace TunnelRelay.Packet

variable {bytes : Bytes} {p : Packet}

def octet (bytes : Bytes) (offset : Nat) : Nat := (bytes.getD offset 0).toNat

/-- Where the IPv4 header ends, as its first byte declares. -/
def ipv4End (bytes : Bytes) : Nat := 4 * (octet bytes 0 % 16)

def behind (bytes : Bytes) : Nat := bytes.length - ipv4End bytes

/-- The length of a TCP header behind the IPv4 header, as its byte 12 declares. -/
def dataOffset (bytes : Bytes) : Nat := 4 * (octet bytes (ipv4End bytes + 12) / 16)

/-- A header of TCP, which may have options, or of UDP lies behind the IPv4 header. -/
def Transported (bytes : Bytes) : Prop :=
  octet bytes 9 = 6 ∧ 20 ≤ behind bytes ∧ 20 ≤ dataOffset bytes ∧ dataOffset bytes ≤ behind bytes ∨
    octet bytes 9 = 17 ∧ 8 ≤ behind bytes

/-- The fields of both headers agree with the bytes, and with what the relay understands. -/
def Relayable (bytes : Bytes) : Prop :=
  octet bytes 0 / 16 = 4 ∧ 20 ≤ ipv4End bytes ∧ ipv4End bytes ≤ bytes.length ∧ Transported bytes

instance : Decidable (Transported bytes) := inferInstanceAs (Decidable (_ ∨ _))

instance : Decidable (Relayable bytes) := inferInstanceAs (Decidable (_ ∧ _))

/-- The protocol that byte 9 names, in bytes that can be relayed. -/
def protocolAt (bytes : Bytes) : Protocol := if octet bytes 9 = 6 then .tcp else .udp

/-- The addresses in the IPv4 header, and the ports right behind it. -/
def keyAt (bytes : Bytes) : FlowKey where
  protocol := protocolAt bytes
  source := ⟨word32At bytes 12, word16At bytes (ipv4End bytes)⟩
  destination := ⟨word32At bytes 16, word16At bytes (ipv4End bytes + 2)⟩

/-- The length of the transport header, in bytes that can be relayed. -/
def transportLength (bytes : Bytes) : Nat :=
  if octet bytes 9 = 6 then dataOffset bytes else udpHeaderLength

private theorem version_eq_iff (b : UInt8) : b >>> 4 = 4 ↔ b.toNat / 16 = 4 := by
  rw [← UInt8.toNat_inj, UInt8.toNat_shiftRight, Nat.shiftRight_eq_div_pow]
  rfl

private theorem low_nibble (b : UInt8) : (b &&& (0x0f : UInt8)).toNat = b.toNat % 16 := by
  rw [UInt8.toNat_and]
  exact Nat.and_two_pow_sub_one_eq_mod b.toNat 4

private theorem high_nibble (b : UInt8) : (b >>> 4).toNat = b.toNat / 16 := by
  rw [UInt8.toNat_shiftRight, Nat.shiftRight_eq_div_pow]
  rfl

private theorem ofNumber?_eq_iff {protocol : Protocol} :
    Protocol.ofNumber? (bytes.getD 9 0) = some protocol ↔
      octet bytes 9 = protocol.number.toNat := by
  rw [Protocol.ofNumber?_eq_some_iff, ← UInt8.toNat_inj]
  rfl

private theorem headerLength_behind {header : TcpHeader} (hb : header.bytes = bytes.drop (ipv4End bytes)) :
    header.headerLength = dataOffset bytes := by
  rw [TcpHeader.headerLength, high_nibble, Nat.mul_comm, dataOffset, octet, hb,
    List.getD_eq_getElem?_getD, List.getElem?_drop, List.getD_eq_getElem?_getD]

private theorem transportAt_eq :
    transportAt bytes (bytes.getD 9 0) (ipv4End bytes) =
      .ok (if Transported bytes then some (protocolAt bytes, transportLength bytes) else none) := by
  have number (protocol : Protocol) : Protocol.ofNumber? (bytes.getD 9 0) = some protocol ↔
      octet bytes 9 = protocol.number.toNat := ofNumber?_eq_iff
  unfold transportAt
  dsimp only
  cases found : Protocol.ofNumber? (bytes.getD 9 0) with
  | none =>
    simp only [found, reduceCtorEq, false_iff] at number
    have tcp : octet bytes 9 ≠ 6 := number .tcp
    have udp : octet bytes 9 ≠ 17 := number .udp
    simp [Transported, tcp, udp]
  | some protocol =>
    have same := (number protocol).1 found
    cases protocol with
    | tcp =>
      replace same : octet bytes 9 = 6 := same
      have route : (protocolAt bytes, transportLength bytes) = (.tcp, dataOffset bytes) := by
        simp [protocolAt, transportLength, same]
      rw [route]
      by_cases complete : tcpMinHeader ≤ bytes.length - ipv4End bytes
      · obtain ⟨header, viewed⟩ : ∃ header, TcpHeader.ofBytes (bytes.drop (ipv4End bytes)) = .ok header :=
          ⟨_, dif_pos (by rwa [List.length_drop])⟩
        have declared := headerLength_behind (TcpHeader.ofBytes_eq_ok_iff.1 viewed)
        have fits : tcpMinHeader ≤ dataOffset bytes ∧ dataOffset bytes ≤ bytes.length - ipv4End bytes ↔
            Transported bytes := by
          have enough : 20 ≤ behind bytes := complete
          simp only [Transported, same, enough, true_and, Nat.reduceEqDiff, false_and, or_false]
          rfl
        rw [if_pos complete, viewed, ok_bind, declared]
        exact congrArg Except.ok (ite_congr (propext fits) (fun _ => rfl) (fun _ => rfl))
      · have not : ¬ Transported bytes := by
          have few : ¬ 20 ≤ behind bytes := complete
          simp [Transported, same, few]
        rw [if_neg complete, if_neg not]
    | udp =>
      replace same : octet bytes 9 = 17 := same
      have route : (protocolAt bytes, transportLength bytes) = (.udp, udpHeaderLength) := by
        simp [protocolAt, transportLength, same]
      have fits : udpHeaderLength ≤ bytes.length - ipv4End bytes ↔ Transported bytes := by
        simp [Transported, same, udpHeaderLength, behind]
      rw [route]
      exact congrArg Except.ok (ite_congr (propext fits) (fun _ => rfl) (fun _ => rfl))

private theorem ofBytes_eq (long : ipv4MinHeader ≤ bytes.length)
    (declared : (word16At bytes 2).toNat = bytes.length) :
    ofBytes bytes = .ok ⟨bytes,
      if Relayable bytes then some (protocolAt bytes, transportLength bytes) else none⟩ := by
  have viewed : Ipv4Header.ofBytes bytes = .ok ⟨bytes, long⟩ := dif_pos long
  have ends : Ipv4Header.headerLength ⟨bytes, long⟩ = ipv4End bytes := by
    rw [Ipv4Header.headerLength, low_nibble, Nat.mul_comm]
    rfl
  have version : Ipv4Header.version ⟨bytes, long⟩ = 4 ↔ octet bytes 0 / 16 = 4 := version_eq_iff _
  have total : require ((Ipv4Header.totalLength ⟨bytes, long⟩).toNat = bytes.length) .assertion = .ok () :=
    require_eq_ok.2 declared
  rw [ofBytes, if_neg (by omega), viewed, ok_bind, total, ok_bind, ends]
  simp only [version]
  have number : Ipv4Header.protocol ⟨bytes, long⟩ = bytes.getD 9 0 := rfl
  by_cases agrees : octet bytes 0 / 16 = 4 ∧ ipv4MinHeader ≤ ipv4End bytes ∧
      ipv4End bytes ≤ bytes.length
  · have rest : Relayable bytes ↔ Transported bytes := by
      obtain ⟨first, enough, inside⟩ := agrees
      have enough' : 20 ≤ ipv4End bytes := enough
      simp [Relayable, first, enough', inside]
    rw [if_pos agrees, number, transportAt_eq, ok_bind]
    simp only [rest]
    rfl
  · have not : ¬ Relayable bytes := fun relayable =>
      agrees ⟨relayable.1, relayable.2.1, relayable.2.2.1⟩
    rw [if_neg agrees, if_neg not]
    rfl

private theorem Relayable.fits (relayable : Relayable bytes) :
    (protocolAt bytes).minHeader ≤ transportLength bytes ∧
      ipv4End bytes + transportLength bytes ≤ bytes.length := by
  obtain ⟨-, -, inside, transported⟩ := relayable
  unfold protocolAt transportLength
  rcases transported with ⟨tcp, -, complete, within⟩ | ⟨udp, within⟩
  · unfold behind at within
    rw [if_pos tcp, if_pos tcp]
    exact ⟨complete, by omega⟩
  · have other : octet bytes 9 ≠ 6 := by omega
    unfold behind at within
    rw [if_neg other, if_neg other]
    exact ⟨Nat.le_refl _, by simp [udpHeaderLength]; omega⟩

private theorem whole_transport {whole : TransportHeader} (hp : whole.protocol = protocolAt bytes)
    (hb : whole.bytes = bytes.drop (ipv4End bytes)) :
    whole.headerLength = transportLength bytes ∧
      whole.sourcePort = word16At bytes (ipv4End bytes) ∧
      whole.destinationPort = word16At bytes (ipv4End bytes + 2) := by
  have word (offset : Nat) : word16At whole.bytes offset = word16At bytes (ipv4End bytes + offset) := by
    simp [hb, word16At, Nat.add_assoc]
  unfold protocolAt at hp
  unfold transportLength
  cases whole with
  | tcp header =>
    have tcp : octet bytes 9 = 6 :=
      Decidable.byContradiction fun other => by simp [other, TransportHeader.protocol] at hp
    rw [if_pos tcp]
    exact ⟨headerLength_behind hb, word 0, word 2⟩
  | udp header =>
    have other : octet bytes 9 ≠ 6 := fun tcp => by simp [tcp, TransportHeader.protocol] at hp
    rw [if_neg other]
    exact ⟨rfl, word 0, word 2⟩

private theorem exists_transport (relayable : Relayable bytes) :
    ∃ transport : TransportHeader, transport.protocol = protocolAt bytes ∧
      transport.bytes = (bytes.drop (ipv4End bytes)).take (transportLength bytes) ∧
      transport.headerLength = transportLength bytes ∧
      transport.sourcePort = word16At bytes (ipv4End bytes) ∧
      transport.destinationPort = word16At bytes (ipv4End bytes + 2) := by
  obtain ⟨enough, within⟩ := relayable.fits
  have rest : transportLength bytes ≤ (bytes.drop (ipv4End bytes)).length := by
    rw [List.length_drop]
    omega
  obtain ⟨transport, viewed⟩ := TransportHeader.ofBytes_isOk
    (show (protocolAt bytes).minHeader ≤
      ((bytes.drop (ipv4End bytes)).take (transportLength bytes)).length by
        rwa [List.length_take_of_le rest])
  obtain ⟨whole, viewed'⟩ := TransportHeader.ofBytes_isOk
    (show (protocolAt bytes).minHeader ≤ (bytes.drop (ipv4End bytes)).length by omega)
  obtain ⟨protocol, bytes_eq⟩ := TransportHeader.ofBytes_eq_ok_iff.1 viewed
  obtain ⟨protocol', bytes_eq'⟩ := TransportHeader.ofBytes_eq_ok_iff.1 viewed'
  obtain ⟨declared, source, destination⟩ := whole_transport protocol' bytes_eq'
  have same : whole.protocol = transport.protocol := protocol'.trans protocol.symm
  rw [← List.take_append_drop (transportLength bytes) (bytes.drop _), ← bytes_eq] at bytes_eq'
  obtain ⟨source', destination'⟩ := TransportHeader.ports_eq_of_append _ same bytes_eq'
  have declared' := TransportHeader.headerLength_eq_of_append _ same bytes_eq'
  exact ⟨transport, protocol, bytes_eq, declared'.symm.trans declared, source'.symm.trans source,
    destination'.symm.trans destination⟩

private theorem exists_views (relayable : Relayable bytes) :
    ∃ ipv4 transport payload,
      Views ⟨bytes, some (protocolAt bytes, transportLength bytes)⟩ ipv4 transport payload ∧
      (⟨transport.protocol, ⟨ipv4.source, transport.sourcePort⟩,
        ⟨ipv4.destination, transport.destinationPort⟩⟩ : FlowKey) = keyAt bytes := by
  obtain ⟨-, complete, inside, -⟩ := id relayable
  obtain ⟨enough, within⟩ := relayable.fits
  obtain ⟨transport, protocol, transport_eq, declared, source, destination⟩ := exists_transport relayable
  have ipv4_length : (bytes.take (ipv4End bytes)).length = ipv4End bytes := List.length_take_of_le inside
  have transport_length : transport.bytes.length = transportLength bytes := by
    rw [transport_eq, List.length_take, List.length_drop]
    omega
  obtain ⟨ipv4, ipv4_eq⟩ : ∃ ipv4 : Ipv4Header, ipv4.bytes = bytes.take (ipv4End bytes) :=
    ⟨⟨_, by rw [ipv4_length]; exact complete⟩, rfl⟩
  obtain ⟨whole, viewed, same⟩ := ipv4.ofBytes_append (bytes.drop (ipv4End bytes))
  rw [ipv4_eq, List.take_append_drop, Ipv4Header.ofBytes_eq_ok_iff] at viewed
  have ends : ipv4.headerLength = ipv4End bytes := by
    have first : whole.headerLength = ipv4End bytes := by
      rw [Ipv4Header.headerLength, low_nibble, Nat.mul_comm, viewed]
      rfl
    exact (congrArg Ipv4Header.Fields.headerLength same).symm.trans first
  have addresses : ipv4.source = word32At bytes 12 ∧ ipv4.destination = word32At bytes 16 := by
    rw [← viewed]
    exact ⟨(congrArg Ipv4Header.Fields.source same).symm,
      (congrArg Ipv4Header.Fields.destination same).symm⟩
  refine ⟨ipv4, transport, (bytes.drop (ipv4End bytes)).drop (transportLength bytes), ⟨?_, ?_, ?_, ?_⟩, ?_⟩
  · simp only [ipv4_eq, transport_eq, List.append_assoc, List.take_append_drop]
  · rw [protocol, transport_length]
  · rw [ends, ipv4_eq, ipv4_length]
  · rw [declared, transport_length]
  · simp only [keyAt, addresses, source, destination, protocol]

theorem declared_of_ofBytes (h : ofBytes bytes = .ok p) (long : ipv4MinHeader ≤ bytes.length) :
    (word16At bytes 2).toNat = bytes.length := by
  rw [ofBytes, if_neg (by omega)] at h
  simp only [checked_bind_eq_ok] at h
  obtain ⟨header, viewed, _, total, -⟩ := h
  obtain rfl := Ipv4Header.ofBytes_eq_ok_iff.1 viewed
  have same := require_eq_ok.1 total
  exact same

/-- A packet that the relay can route has parts. -/
theorem views_of_ofBytes (h : ofBytes bytes = .ok p) (valid : p.isValid = true) :
    ∃ ipv4 transport payload, p.Views ipv4 transport payload := by
  have long := (judged_of_ofBytes h).length_of_isValid valid
  rw [length, bytes_of_ofBytes h] at long
  rw [ofBytes_eq long (declared_of_ofBytes h long), Except.ok.injEq] at h
  subst h
  by_cases relayable : Relayable bytes
  · simp only [relayable, if_true]
    obtain ⟨ipv4, transport, payload, views, -⟩ := exists_views relayable
    exact ⟨ipv4, transport, payload, views⟩
  · simp [isValid, relayable] at valid

private theorem Views.declares {ipv4 : Ipv4Header} {transport : TransportHeader} {payload : Bytes}
    (v : p.Views ipv4 transport payload) (h : ofBytes p.bytes = .ok p) :
    ipv4.version = 4 ∧ ipv4.protocol = transport.protocol.number ∧
      ipv4.totalLength.toNat = p.length := by
  obtain ⟨-, header, viewed, version, number⟩ := ofBytes_inv h v.routed
  have bytes_eq := Ipv4Header.ofBytes_eq_ok_iff.1 viewed
  have same : header.fields = ipv4.fields :=
    Ipv4Header.fields_eq_of_append (transport.bytes ++ payload)
      (by rw [bytes_eq, v.bytes_eq, List.append_assoc])
  have total : header.totalLength.toNat = p.bytes.length := by
    rw [← declared_of_ofBytes h (bytes_eq ▸ header.complete), ← bytes_eq]
    rfl
  exact ⟨(congrArg Ipv4Header.Fields.version same).symm.trans version,
    (congrArg Ipv4Header.Fields.protocol same).symm.trans number,
    (congrArg (UInt16.toNat ∘ Ipv4Header.Fields.totalLength) same).symm.trans total⟩

/-- New checksums do not change the verdict over a packet, nor its length. -/
theorem ofBytes_withChecksums {packet : Packet} (h : ofBytes bytes = .ok p)
    (done : p.withChecksums = .ok packet) :
    ofBytes packet.bytes = .ok packet ∧ packet.length = p.length := by
  obtain rfl := bytes_of_ofBytes h
  by_cases valid : p.isValid = true
  · obtain ⟨ipv4, transport, payload, views⟩ := views_of_ofBytes h valid
    obtain ⟨version, number, total⟩ := views.declares h
    simp only [views.withChecksums_eq, checked_bind_eq_ok, checked_pure_eq_ok] at done
    obtain ⟨ipv4', updated, transport', updated', rfl⟩ := done
    obtain ⟨⟨checksum, fields⟩, ipv4_length⟩ := Ipv4Header.fields_updateChecksum updated
    have alike := TransportHeader.alike_updateChecksum updated'
    have views' := views.updated updated updated'
    have length : Packet.length { p with bytes := ipv4'.bytes ++ transport'.bytes ++ payload } = p.length := by
      rw [views'.length_eq, views.length_eq, ipv4_length, alike.length_eq]
    refine ⟨views'.ofBytes_eq ?_ ?_ ?_, length⟩
    · exact (congrArg Ipv4Header.Fields.version fields).trans version
    · rw [alike.protocol_eq, ← number]
      exact congrArg Ipv4Header.Fields.protocol fields
    · rw [length, ← total]
      exact congrArg (UInt16.toNat ∘ Ipv4Header.Fields.totalLength) fields
  · rw [isValid, Bool.not_eq_true, Option.isSome_eq_false_iff, Option.isNone_iff_eq_none] at valid
    rw [withChecksums, valid] at done
    cases done
    exact ⟨h, rfl⟩

/-- No way to look at the packet faults. -/
structure Readable (p : Packet) : Prop where
  ipv4 : ∃ header, p.ipv4 = .ok header
  editIpv4 {edit : Ipv4Header → Checked Ipv4Header} (total : ∀ header, ∃ header', edit header = .ok header') :
    ∃ edited, p.editIpv4 edit = .ok edited
  transportHeader : ∃ found, p.transportHeader = .ok found
  tcp : ∃ found, p.tcp = .ok found
  payload : ∃ found, p.payload = .ok found
  payloadLength : ∃ n, p.payloadLength = .ok n
  describe : ∃ text, p.describe = .ok text
  withChecksums : ∃ packet, p.withChecksums = .ok packet
  key : ∃ found, FlowKey.ofPacket p = .ok found

theorem readable_of_ofBytes (h : ofBytes bytes = .ok p) (long : ipv4MinHeader ≤ p.length) : p.Readable := by
  have judged := judged_of_ofBytes h
  obtain ⟨header, ipv4, -⟩ := judged.ipv4_eq long
  obtain ⟨transport, transportHeader, -⟩ := judged.transportHeader_isOk
  obtain ⟨payload, payload_eq, -⟩ := judged.payload_isOk
  obtain ⟨key, key_eq, -⟩ := judged.flowKey_isOk
  refine ⟨⟨_, ipv4⟩, ?_, ⟨_, transportHeader⟩, judged.tcp_isOk, ⟨_, payload_eq⟩, ?_,
    judged.describe_isOk, ?_, ⟨_, key_eq⟩⟩
  · intro edit total
    obtain ⟨header', edited⟩ := total header
    rw [Packet.editIpv4, ipv4, ok_bind, edited]
    exact ⟨_, rfl⟩
  · rw [payloadLength, payload_eq]
    exact ⟨_, rfl⟩
  · by_cases valid : p.isValid = true
    · obtain ⟨_, _, _, views⟩ := views_of_ofBytes h valid
      obtain ⟨_, _, -, -, done, -⟩ := views.withChecksums_verifies judged.length_le
      exact ⟨_, done⟩
    · rw [isValid, Bool.not_eq_true, Option.isSome_eq_false_iff, Option.isNone_iff_eq_none] at valid
      rw [withChecksums, valid]
      exact ⟨_, rfl⟩

/-- Bytes that are as long as they declare make a valid packet exactly if they can be relayed. Then the
parts of the packet are all of its bytes, and otherwise it has none. -/
theorem isValid_iff_relayable (long : ipv4MinHeader ≤ bytes.length)
    (declared : (word16At bytes 2).toNat = bytes.length) :
    ∃ p, ofBytes bytes = .ok p ∧ p.bytes = bytes ∧ p.Readable ∧
      (p.isValid = true ↔ Relayable bytes) ∧
      (Relayable bytes → ∃ ipv4 transport payload, p.ipv4 = .ok ipv4 ∧
        p.transportHeader = .ok (some transport) ∧ p.payload = .ok (some payload) ∧
        ipv4.bytes ++ transport.bytes ++ payload = bytes ∧
        p.protocol = some (protocolAt bytes) ∧ FlowKey.ofPacket p = .ok (some (keyAt bytes))) ∧
      (¬ Relayable bytes → p.transportHeader = .ok none ∧ p.tcp = .ok none ∧ p.payload = .ok none ∧
        p.protocol = none ∧ FlowKey.ofPacket p = .ok none ∧ p.payloadLength = .ok 0) := by
  have judged := ofBytes_eq long declared
  refine ⟨_, judged, rfl, readable_of_ofBytes judged long, ?_, fun relayable => ?_, fun not => ?_⟩
  · by_cases relayable : Relayable bytes <;> simp [isValid, relayable]
  · simp only [relayable, if_true]
    obtain ⟨ipv4, transport, payload, views, key⟩ := exists_views relayable
    exact ⟨ipv4, transport, payload, views.ipv4_eq, views.transportHeader_eq, views.payload_eq,
      views.bytes_eq.symm, rfl, views.key_eq.trans (congrArg (Except.ok ∘ some) key)⟩
  · simp only [not, if_false]
    exact ⟨rfl, rfl, rfl, rfl, rfl, rfl⟩

/-- A TCP segment with two bytes of payload, behind options in both headers. -/
def segmentWithOptions : Bytes :=
  [0x46, 0, 0, 50, 0, 0, 0, 0, 64, 6, 0, 0, 10, 0, 0, 1, 10, 0, 0, 2, 1, 1, 1, 1] ++
    [0x30, 0x39, 0, 80, 0, 0, 0, 1, 0, 0, 0, 0, 0x60, 0x02, 16, 0, 0, 0, 0, 0, 2, 4, 5, 0xb4] ++ [104, 105]

theorem isValid_segmentWithOptions :
    ∃ p, ofBytes segmentWithOptions = .ok p ∧ p.isValid = true ∧ p.Readable ∧
      FlowKey.ofPacket p =
        .ok (some ⟨.tcp, ⟨0x0a000001, 12345⟩, ⟨0x0a000002, 80⟩⟩) := by
  have long : ipv4MinHeader ≤ segmentWithOptions.length := by decide
  have declared : (word16At segmentWithOptions 2).toNat = segmentWithOptions.length := by decide
  have relayable : Relayable segmentWithOptions := by decide
  obtain ⟨p, parsed, -, readable, valid, parts, -⟩ := isValid_iff_relayable long declared
  obtain ⟨_, _, _, -, -, -, -, -, key⟩ := parts relayable
  have named : keyAt segmentWithOptions = ⟨.tcp, ⟨0x0a000001, 12345⟩, ⟨0x0a000002, 80⟩⟩ := by decide
  exact ⟨p, parsed, valid.2 relayable, readable, named ▸ key⟩

end TunnelRelay.Packet
