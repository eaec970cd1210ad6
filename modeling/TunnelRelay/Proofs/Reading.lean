import TunnelRelay.Flow.Tcp.Basic
import TunnelRelay.Proofs.Framing
import TunnelRelay.Proofs.Reply

/-!
# Packets that can be read

What a packet declares about its headers was checked against its bytes when the packet was judged, so
that every part of it can be read.
-/

namespace TunnelRelay

/-- The length of what is within a packet fits into a sequence number. -/
theorem narrow32_eq_of_le {n : Nat} (h : n ≤ maxPacketLength) : narrow32 n = .ok n.toUInt32 := by
  unfold maxPacketLength at h
  exact narrow32_eq_ok (by omega)

namespace Packet

/-- The packet is not longer than any can be, and both headers of one that can be routed lie in it. -/
structure Judged (p : Packet) : Prop where
  length_le : p.length ≤ maxPacketLength
  headers {protocol : Protocol} {length : Nat} (routed : p.transport = some (protocol, length)) :
    ∃ header : Ipv4Header, header.bytes = p.bytes ∧ ipv4MinHeader ≤ header.headerLength ∧
      protocol.minHeader ≤ length ∧ header.headerLength + length ≤ p.length

variable {p : Packet} {bytes : Bytes} {protocol : Protocol} {length : Nat}

private theorem fits_of_transportAt {number : UInt8} {offset : Nat} (inside : offset ≤ bytes.length)
    (h : transportAt bytes number offset = .ok (some (protocol, length))) :
    protocol.minHeader ≤ length ∧ offset + length ≤ bytes.length := by
  unfold transportAt at h
  dsimp only at h
  split at h
  · cases h
  · split at h
    · simp only [checked_bind_eq_ok, checked_pure_eq_ok] at h
      obtain ⟨header, -, h⟩ := h
      split at h
      · next fits =>
        cases h
        exact ⟨fits.1, by omega⟩
      · cases h
    · cases h
  · split at h
    · next fits =>
      cases h
      exact ⟨Nat.le_refl _, by omega⟩
    · cases h

theorem judged_of_ofBytes (h : ofBytes bytes = .ok p) : p.Judged := by
  unfold ofBytes at h
  split at h
  · next short =>
    cases h
    exact ⟨Nat.le_trans (Nat.le_of_lt short) (by decide), by simp⟩
  simp only [checked_bind_eq_ok] at h
  obtain ⟨header, hh, _, total, h⟩ := h
  obtain rfl := Ipv4Header.ofBytes_eq_ok_iff.1 hh
  have short : header.bytes.length ≤ maxPacketLength :=
    require_eq_ok.1 total ▸ Nat.le_of_lt_succ header.totalLength.toNat_lt
  split at h
  · next declared =>
    simp only [checked_bind_eq_ok, checked_pure_eq_ok] at h
    obtain ⟨found, hf, rfl⟩ := h
    refine ⟨short, fun {protocol length} routed => ⟨header, rfl, declared.2.1, ?_⟩⟩
    obtain rfl : found = some (protocol, length) := routed
    exact fits_of_transportAt declared.2.2 hf
  · cases h
    exact ⟨short, by simp⟩

namespace Judged

/-- The IPv4 header of a packet that can be routed ends before its transport header does. -/
theorem ipv4Length_eq (h : p.Judged) (routed : p.transport = some (protocol, length)) :
    ∃ start, p.ipv4Length = .ok start ∧ ipv4MinHeader ≤ start ∧ protocol.minHeader ≤ length ∧
      start + length ≤ p.length := by
  obtain ⟨header, bytes_eq, enough, complete, fits⟩ := h.headers routed
  refine ⟨header.headerLength, ?_, enough, complete, fits⟩
  rw [ipv4Length, if_pos (by simp [isValid, routed]), ← bytes_eq, header.ofBytes_eq]
  rfl

/-- The IPv4 header can be read where there is one. -/
theorem ipv4_eq (h : p.Judged) (long : ipv4MinHeader ≤ p.length) :
    ∃ header, p.ipv4 = .ok header ∧
      (p.isValid = true → p.ipv4Length = .ok header.headerLength) := by
  have whole (n : Nat) (enough : ipv4MinHeader ≤ n) (fits : n ≤ p.length) :
      ∃ header, header.bytes = p.bytes.take n ∧
        (slice p.bytes 0 n >>= Ipv4Header.ofBytes) = .ok header := by
    have complete : ipv4MinHeader ≤ (p.bytes.take n).length := by
      rwa [List.length_take_of_le fits]
    refine ⟨⟨p.bytes.take n, complete⟩, rfl, ?_⟩
    rw [slice_eq_ok (Nat.zero_le _) fits, ok_bind, List.drop_zero]
    exact dif_pos complete
  cases routed : p.transport with
  | none =>
    obtain ⟨header, -, found⟩ := whole ipv4MinHeader (Nat.le_refl _) long
    have start : p.ipv4Length = .ok ipv4MinHeader := by
      rw [ipv4Length, isValid, routed, if_neg (by simp), Nat.min_eq_left long]
    refine ⟨header, ?_, by simp [isValid, routed]⟩
    rw [ipv4, start]
    exact found
  | some routed' =>
    obtain ⟨found, bytes_eq, enough, -, fits⟩ := h.headers routed
    have start : p.ipv4Length = .ok found.headerLength := by
      rw [ipv4Length, if_pos (by simp [isValid, routed]), ← bytes_eq, found.ofBytes_eq]
      rfl
    obtain ⟨header, front, read⟩ := whole found.headerLength enough (by omega)
    refine ⟨header, by rw [ipv4, start]; exact read, fun _ => ?_⟩
    have same : found.fields = header.fields :=
      Ipv4Header.fields_eq_of_append (p.bytes.drop found.headerLength)
        (by rw [front, List.take_append_drop, bytes_eq])
    rw [start]
    exact congrArg (fun fields => Except.ok fields.headerLength) same

theorem transportHeader_eq (h : p.Judged) (routed : p.transport = some (protocol, length)) :
    ∃ header, p.transportHeader = .ok (some header) ∧ header.protocol = protocol := by
  obtain ⟨start, start_eq, -, complete, fits⟩ := h.ipv4Length_eq routed
  have front : slice p.bytes start (start + length) = _ :=
    slice_eq_ok (Nat.le_add_right _ _) fits
  have long : protocol.minHeader ≤ ((p.bytes.take (start + length)).drop start).length := by
    rw [length_of_slice front]
    omega
  obtain ⟨header, parsed⟩ := TransportHeader.ofBytes_isOk long
  refine ⟨header, ?_, (TransportHeader.ofBytes_eq_ok_iff.1 parsed).1⟩
  rw [transportHeader, routed]
  dsimp only
  rw [start_eq, ok_bind, front, ok_bind, parsed]
  rfl

theorem transportHeader_isOk (h : p.Judged) : ∃ found, p.transportHeader = .ok found ∧
    (found.isSome = true → p.isValid = true) := by
  cases routed : p.transport with
  | none =>
    refine ⟨none, ?_, nofun⟩
    rw [transportHeader, routed]
  | some routed' =>
    obtain ⟨header, read, -⟩ := h.transportHeader_eq routed
    exact ⟨some header, read, fun _ => by rw [isValid, routed]; rfl⟩

theorem length_of_isValid (h : p.Judged) (valid : p.isValid = true) :
    ipv4MinHeader ≤ p.length := by
  obtain ⟨⟨protocol, length⟩, routed⟩ := Option.isSome_iff_exists.1 valid
  obtain ⟨start, -, enough, -, fits⟩ := h.ipv4Length_eq routed
  omega

theorem payload_isOk (h : p.Judged) : ∃ found, p.payload = .ok found ∧
    ∀ payload ∈ found, payload.length ≤ maxPacketLength := by
  cases routed : p.transport with
  | none =>
    refine ⟨none, ?_, nofun⟩
    rw [payload, routed]
  | some routed' =>
    obtain ⟨protocol, length⟩ := routed'
    obtain ⟨start, start_eq, -, -, fits⟩ := h.ipv4Length_eq routed
    have back : slice p.bytes (start + length) p.length = _ := slice_eq_ok fits (Nat.le_refl _)
    refine ⟨some ((p.bytes.take p.length).drop (start + length)), ?_, ?_⟩
    · rw [payload, routed]
      dsimp only
      rw [start_eq, ok_bind, back]
      rfl
    · rintro _ ⟨⟩
      have := length_of_slice back
      have := h.length_le
      omega

theorem tcp_isOk (h : p.Judged) : ∃ found, p.tcp = .ok found := by
  obtain ⟨found, read, -⟩ := h.transportHeader_isOk
  rw [tcp, read, ok_bind]
  split <;> exact ⟨_, rfl⟩

theorem describe_isOk (h : p.Judged) : ∃ text, p.describe = .ok text := by
  unfold describe
  split
  · exact ⟨_, rfl⟩
  next long =>
  obtain ⟨found, read, -⟩ := h.transportHeader_isOk
  obtain ⟨header, ipv4_eq, -⟩ := h.ipv4_eq (Nat.le_of_not_lt long)
  obtain ⟨payload, payload_eq, -⟩ := h.payload_isOk
  rw [read, ok_bind, payloadLength, payload_eq, ipv4_eq]
  split <;> exact ⟨_, rfl⟩

/-- A packet has a flow if and only if the relay can route it. -/
theorem flowKey_isOk (h : p.Judged) : ∃ key, FlowKey.ofPacket p = .ok key ∧
    ∀ k ∈ key, p.protocol = some k.protocol := by
  cases routed : p.transport with
  | none =>
    refine ⟨none, ?_, nofun⟩
    rw [FlowKey.ofPacket, transportHeader, routed]
    rfl
  | some routed' =>
    obtain ⟨transport, read, same⟩ := h.transportHeader_eq routed
    have valid : p.isValid = true := by simp [isValid, routed]
    obtain ⟨header, ipv4_eq, -⟩ := h.ipv4_eq (h.length_of_isValid valid)
    refine ⟨some ⟨transport.protocol, ⟨header.source, transport.sourcePort⟩,
      ⟨header.destination, transport.destinationPort⟩⟩, ?_, ?_⟩
    · rw [FlowKey.ofPacket, read, ok_bind]
      dsimp only
      rw [ipv4_eq]
      rfl
    · rintro _ ⟨⟩
      rw [protocol, routed, same]
      rfl

theorem segment_isOk (h : p.Judged) : ∃ found, Segment.ofPacket p = .ok found ∧
    ∀ segment ∈ found, segment.payload.length ≤ maxPacketLength := by
  obtain ⟨header, tcp_eq⟩ := h.tcp_isOk
  obtain ⟨payload, payload_eq, short⟩ := h.payload_isOk
  rw [Segment.ofPacket, tcp_eq, ok_bind, payload_eq]
  cases header with
  | none => exact ⟨none, rfl, nofun⟩
  | some header =>
    refine ⟨some _, rfl, ?_⟩
    rintro _ ⟨⟩
    cases payload with
    | none => exact Nat.zero_le _
    | some payload => exact short _ rfl

end Judged

end Packet

end TunnelRelay
