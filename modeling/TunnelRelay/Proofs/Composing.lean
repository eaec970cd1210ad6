import TunnelRelay.Proofs.Reading

/-!
# Packets can be put together

A reply has room for the longest packet, and its headers leave as much for the payload as its packets
are ever given. So lengths fit their fields, and checksums their accumulator.
-/

namespace TunnelRelay

theorem TransportHeader.setPayloadLength_isOk (t : TransportHeader) {length : UInt16}
    (fits : t.protocol.minHeader + length.toNat < 0x10000) :
    ∃ t', t.setPayloadLength length = .ok t' := by
  cases t with
  | tcp header => exact ⟨_, rfl⟩
  | udp header => exact ⟨_, congrArg (TransportHeader.udp <$> ·) (if_pos fits)⟩

namespace Reply

variable {r : Reply} {payload : Bytes}

theorem compose_isOk (hr : Plain r.ipv4 r.transport)
    (short : r.headers.length + payload.length ≤ maxPacketLength) :
    ∃ packet, r.compose payload = .ok packet := by
  have headers := length_headers hr
  unfold maxPacketLength at short
  have narrow : narrow16 payload.length = .ok payload.length.toUInt16 := narrow16_eq_ok (by omega)
  have narrow' : narrow16 (r.headers.length + payload.length) = .ok _ := narrow16_eq_ok (by omega)
  have small : payload.length.toUInt16.toNat = payload.length := narrow16_eq_ok_iff.1 narrow
  obtain ⟨transport, ht⟩ := r.transport.setPayloadLength_isOk
    (show r.transport.protocol.minHeader + payload.length.toUInt16.toNat < _ by omega)
  have alike := TransportHeader.alike_setPayloadLength ht
  have plain := plain_setTotalLength hr (r.headers.length + payload.length).toUInt16 alike
  obtain ⟨ipv4, transport', hi, hu, -⟩ := (Packet.views_ofParts plain).withChecksums_verifies (by
    rw [Packet.length_ofParts plain, alike.protocol_eq, ← headers]
    exact short)
  rw [compose, narrow, ok_bind, narrow', ok_bind, ht, ok_bind, hi, ok_bind, hu]
  exact ⟨_, rfl⟩

theorem complete_isOk (hr : Plain r.ipv4 r.transport) {slab : Slab}
    (hs : slab.filled = r.headers ++ payload)
    (short : r.headers.length + payload.length ≤ maxPacketLength) :
    ∃ packet, r.complete slab = .ok (packet, { slab with filled := packet.bytes }) ∧
      r.Carries payload packet ∧ packet.bytes.length = slab.length := by
  obtain ⟨packet, composed⟩ := compose_isOk hr short
  have carries := carries_of_compose hr composed
  refine ⟨packet, by rw [complete_eq hr hs, composed]; rfl, carries, ?_⟩
  obtain ⟨ipv4, transport, rfl, plain, -, alike, -⟩ := carries.inv hr
  change (Packet.ofParts ipv4 transport payload).length = _
  rw [Packet.length_ofParts plain, alike.protocol_eq, ← length_headers hr, Slab.length, hs,
    List.length_append]

/-- The headers have no options, and there is room for the longest packet with them. -/
structure Equipped (r : Reply) : Prop where
  plain : Plain r.ipv4 r.transport
  data_capacity : r.data.capacity = maxPacketLength
  control_capacity : r.control.capacity = r.headers.length

variable {limit : Nat}

theorem Equipped.headers_le (h : r.Equipped) : r.headers.length ≤ maxPacketLength := by
  rw [length_headers h.plain]
  cases r.transport.protocol <;> decide

theorem Equipped.length_le (h : r.Equipped) (fits : payload.length ≤ r.maxPayload) :
    r.headers.length + payload.length ≤ maxPacketLength := by
  have := h.headers_le
  unfold maxPayload at fits
  omega

theorem put_isOk {slab : Slab} {bytes : Bytes} (fits : bytes.length ≤ slab.capacity) :
    ∃ filled, slab.clear.put bytes = .ok filled ∧ filled.filled = bytes ∧
      filled.capacity = slab.capacity := by
  have room : bytes.length ≤ slab.clear.remaining := by
    rw [← slab.capacity_clear] at fits
    simpa [Slab.capacity, Slab.length, Slab.clear] using fits
  have done : slab.clear.put bytes = .ok _ := if_pos room
  obtain ⟨filled, capacity⟩ := Slab.filled_of_put done
  exact ⟨_, done, filled, capacity.trans slab.capacity_clear⟩

theorem capacity_refill {slab : Slab} {bytes : Bytes} (same : bytes.length = slab.length) :
    Slab.capacity { slab with filled := bytes } = slab.capacity := by
  simp only [Slab.capacity, Slab.length, Slab.remaining] at same ⊢
  omega

theorem Equipped.withoutPayload_isOk (h : r.Equipped) :
    ∃ packet control, r.withoutPayload = .ok (packet, { r with control }) ∧
      r.Carries [] packet ∧ Equipped { r with control } := by
  obtain ⟨slab, put, filled, capacity⟩ :=
    put_isOk (show r.headers.length ≤ r.control.capacity from Nat.le_of_eq h.control_capacity.symm)
  obtain ⟨packet, completed, carries, same⟩ := complete_isOk h.plain
    (filled.trans (List.append_nil _).symm) (h.length_le (Nat.zero_le _))
  refine ⟨packet, { slab with filled := packet.bytes }, ?_, carries, h.plain, h.data_capacity, ?_⟩
  · rw [withoutPayload, put, ok_bind, completed]
    rfl
  · exact (capacity_refill same).trans (capacity.trans h.control_capacity)

/-- The room that is reserved for payload is as large as asked for, if a packet has that much. -/
theorem Equipped.reserve_isOk (h : r.Equipped) (limit : Nat) :
    ∃ data, r.reserve limit = .ok (min limit r.maxPayload, { r with data }) ∧
      Equipped { r with data } ∧ data.filled = r.headers := by
  have enough := h.headers_le
  obtain ⟨data, put, filled, capacity⟩ := put_isOk (h.data_capacity ▸ enough)
  rw [h.data_capacity] at capacity
  have room : min limit r.maxPayload ≤ data.remaining := by
    have length : data.length = r.headers.length := congrArg List.length filled
    unfold Slab.capacity at capacity
    unfold maxPayload
    omega
  refine ⟨data, ?_, ⟨h.plain, capacity, h.control_capacity⟩, filled⟩
  unfold reserve
  dsimp only
  rw [put, ok_bind, require_eq_ok.2 room]
  rfl

private theorem take_ahead (slab : Slab) {m n : Nat} (h : m ≤ n) :
    (slab.ahead n).take m = slab.ahead m := by
  simp only [Slab.ahead, List.take_append, List.take_take, List.take_replicate, List.length_take]
  congr 2 <;> omega

/-- Of the bytes that are laid into a slab the first `n` count. -/
theorem lay_advance_isOk {slab : Slab} {bytes : Bytes} {n : Nat} (fits : bytes.length ≤ slab.remaining)
    (small : slab.capacity ≤ maxPacketLength) (within : n ≤ bytes.length) :
    ∃ laid full, slab.lay bytes = .ok laid ∧ laid.advance n = .ok full ∧
      full.filled = slab.filled ++ bytes.take n ∧ full.capacity = slab.capacity := by
  obtain ⟨laid, lay⟩ : ∃ laid, slab.lay bytes = .ok laid := ⟨_, if_pos fits⟩
  obtain ⟨filled, ahead, capacity⟩ := Slab.ahead_of_lay lay
  have length : laid.length = slab.length := congrArg List.length filled
  have room : n ≤ laid.remaining := by
    unfold Slab.capacity at capacity
    omega
  obtain ⟨full, advance⟩ : ∃ full, laid.advance n = .ok full := by
    unfold Slab.capacity maxPacketLength at *
    rw [Slab.advance, if_pos (by omega), if_pos room]
    exact ⟨_, rfl⟩
  obtain ⟨filled', capacity'⟩ := Slab.filled_of_advance advance
  rw [filled, ← take_ahead laid within, ahead] at filled'
  exact ⟨laid, full, lay, advance, filled', capacity'.trans capacity⟩

/-- What fits the reserved room makes a packet, which is kept. -/
theorem Equipped.deliver_isOk (h : r.Equipped) (filled : r.data.filled = r.headers)
    (fits : payload.length ≤ r.maxPayload) :
    ∃ started packet data, r.commit payload payload.length = .ok started ∧
      started.completeData = .ok (packet, { r with data }) ∧ r.Carries payload packet ∧
      Equipped { r with data } ∧ latestData { r with data } = .ok packet := by
  have short := h.length_le fits
  have capacity := h.data_capacity
  have length : r.data.length = r.headers.length := congrArg List.length filled
  have room : payload.length ≤ r.data.remaining := by
    unfold Slab.capacity at capacity
    omega
  obtain ⟨laid, full, lay, advance, full_eq, same⟩ :=
    lay_advance_isOk room (Nat.le_of_eq capacity) (Nat.le_refl payload.length)
  rw [filled, List.take_length] at full_eq
  obtain ⟨packet, completed, carries, packet_length⟩ :=
    complete_isOk (show Plain { r with data := full }.ipv4 _ from h.plain) full_eq short
  refine ⟨{ r with data := full }, packet, { full with filled := packet.bytes }, ?_, ?_,
    ⟨carries.parts, carries.length_lt⟩, ⟨h.plain, ?_, h.control_capacity⟩, carries.ofBytes_eq h.plain⟩
  · rw [commit, lay, ok_bind, advance]
    rfl
  · change (r.complete full >>= _) = _
    rw [completed]
    rfl
  · exact (capacity_refill packet_length).trans (same.trans capacity)

theorem Carries.judged {packet : Packet} (hr : Plain r.ipv4 r.transport)
    (hc : r.Carries payload packet) : packet.Judged := Packet.judged_of_ofBytes (hc.ofBytes_eq hr)

theorem Equipped.editTcp (h : r.Equipped) {edit : TcpHeader → TcpHeader}
    (same : ∀ header, (edit header).bytes.length = header.bytes.length ∧
      (edit header).headerLength = header.headerLength) : (r.editTcp edit).Equipped := by
  obtain ⟨plain, data, control⟩ := h
  unfold Reply.editTcp
  split
  · next header ht =>
    unfold headers at control
    rw [ht] at plain control
    obtain ⟨length, declared⟩ := same header
    refine ⟨⟨plain.ipv4_length, plain.version_eq, plain.ipv4_declared, plain.protocol_eq, ?_, ?_⟩,
      data, ?_⟩
    · exact length.trans plain.transport_length
    · exact declared.trans plain.transport_declared
    · rw [control, headers, List.length_append, List.length_append]
      exact congrArg _ length.symm
  · exact ⟨plain, data, control⟩

/-- Replies to any packet can be prepared, or there is nothing to reply to. -/
theorem ofRequest_isOk {bytes : Bytes} {request : Packet}
    (parsed : Packet.ofBytes bytes = .ok request) :
    ∃ found, ofRequest request = .ok found ∧ ∀ r ∈ found, r.Equipped := by
  have judged := Packet.judged_of_ofBytes parsed
  cases routed : request.transport with
  | none =>
    refine ⟨none, ?_, nofun⟩
    rw [ofRequest, Packet.transportHeader, routed]
    rfl
  | some routed' =>
    obtain ⟨protocol, length⟩ := routed'
    obtain ⟨header, read, rfl⟩ := judged.transportHeader_eq routed
    have valid : request.isValid = true := by simp [Packet.isValid, routed]
    have long := judged.length_of_isValid valid
    obtain ⟨ipv4, ipv4_eq, start_eq⟩ := judged.ipv4_eq long
    obtain ⟨start, start_eq', -, complete, fits⟩ := judged.ipv4Length_eq routed
    cases (start_eq valid).symm.trans start_eq'
    have front : slice request.bytes 0 ipv4MinHeader = _ := slice_eq_ok (Nat.zero_le _) long
    have front_length := length_of_slice front
    have back : slice request.bytes ipv4.headerLength
        (ipv4.headerLength + header.protocol.minHeader) = _ :=
      slice_eq_ok (Nat.le_add_right _ _) (Nat.le_trans (Nat.add_le_add_left complete _) fits)
    have back_length := length_of_slice back
    obtain ⟨ipv4', hi⟩ : ∃ h, Ipv4Header.ofBytes ((request.bytes.take ipv4MinHeader).drop 0) = .ok h :=
      ⟨_, dif_pos (Nat.le_of_eq front_length.symm)⟩
    obtain ⟨turned, hs⟩ : ∃ h, ipv4'.setHeaderLength ipv4MinHeader = .ok h := ⟨_, if_pos (by decide)⟩
    obtain ⟨transport, ht⟩ := TransportHeader.ofBytes_isOk
      (Nat.le_of_eq (back_length.trans (Nat.add_sub_cancel_left _ _)).symm)
    have answered : ofRequest request = .ok (some {
        ipv4 := turned.swapAddresses
        transport := transport.swapPorts.dropOptions
        data := .zeroed maxPacketLength
        control := .zeroed (ipv4MinHeader + header.protocol.minHeader) }) := by
      rw [ofRequest, read, ok_bind]
      dsimp only
      rw [ipv4_eq, ok_bind, front, ok_bind, hi, ok_bind, hs, ok_bind, back, ok_bind, ht]
      rfl
    obtain ⟨plain, -⟩ := plain_of_ofRequest parsed answered
    refine ⟨_, answered, ?_⟩
    rintro _ ⟨⟩
    refine ⟨plain, Slab.capacity_zeroed _, ?_⟩
    rw [length_headers plain]
    simp [(TransportHeader.ofBytes_eq_ok_iff.1 ht).1]

end Reply

end TunnelRelay
