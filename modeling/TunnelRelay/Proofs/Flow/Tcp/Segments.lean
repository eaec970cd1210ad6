import TunnelRelay.Proofs.Flow.Tcp.Run

/-!
# What the packets of a TCP flow say

A packet for the device that is built says what the flow knows at that moment: its numbers, and the
room in its ring. A packet that waits stays in the slab as it was built.
-/

namespace TunnelRelay

/-- A TCP packet is read as the segment that its headers and its payload make. -/
theorem Reply.Carries.segment_eq {r : Reply} {header : TcpHeader} {payload : Bytes}
    {packet : Packet} (hr : Plain r.ipv4 r.transport) (ht : r.transport = .tcp header)
    (hc : r.Carries payload packet) :
    Segment.ofPacket packet = .ok (some {
      flags := header.flags
      sequence := header.sequence
      acknowledgement := header.acknowledgement
      window := header.window
      payload }) := by
  obtain ⟨transport, hp, alike⟩ := hc.transportHeader_eq hr
  rw [ht] at alike
  cases alike with
  | @tcp _ header' checksum fields_eq _ =>
    have flags : header'.flags = header.flags := congrArg TcpHeader.Fields.flags fields_eq
    have sequence : header'.sequence = header.sequence :=
      congrArg TcpHeader.Fields.sequence fields_eq
    have acknowledgement : header'.acknowledgement = header.acknowledgement :=
      congrArg TcpHeader.Fields.acknowledgement fields_eq
    have window : header'.window = header.window := congrArg TcpHeader.Fields.window fields_eq
    simp only [Segment.ofPacket, Packet.tcp, hp, hc.payload_eq hr]
    rw [← flags, ← sequence, ← acknowledgement, ← window]
    rfl

/-- The segment that the bytes of a packet are read as. -/
def Segment.ofBytes (bytes : Bytes) : Checked (Option Segment) := do
  Segment.ofPacket (← Packet.ofBytes bytes)

theorem Segment.ofBytes_eq {packet : Packet} {found : Option Segment}
    (parsed : Packet.ofBytes packet.bytes = .ok packet)
    (h : Segment.ofPacket packet = .ok found) : Segment.ofBytes packet.bytes = .ok found := by
  rw [Segment.ofBytes, parsed]
  exact h

namespace TcpFlow

/-- The segment that the flow sends with these flags and this payload. -/
def segment (f : TcpFlow) (flags : TcpFlags) (payload : Bytes) : Segment where
  flags := .ofBits flags.bits
  sequence := f.sequence
  acknowledgement := f.expected
  window := f.windowToGrant.toUInt16
  payload := payload

def Mark.built? : Mark → Option Sent
  | connected sent | took _ sent | ended _ sent | delivered _ _ sent | exhausted _ sent
  | widened sent | closed (.finished _ sent) _ | closed (.reset _ sent) _ => some sent
  | _ => none

/-- Ring and reply are in order. -/
structure Healthy (f : TcpFlow) : Prop where
  sound : f.ring.Sound
  plain : Plain f.reply.ipv4 f.reply.transport
  protocol_eq : f.reply.transport.protocol = .tcp

variable {σ : Type} [Outlet σ] {stimulus : Stimulus} {f g : TcpFlow} {r r' : Registry}
  {out out' : σ} {flags : TcpFlags} {sent : Sent} {mark : Mark} {size : Nat} {payload : Bytes}

theorem Fresh.healthy (hf : Fresh f) : Healthy f := ⟨hf.sound, hf.plain, hf.protocol_eq⟩

/-- The header of the packets to come is what it was, but for what the flow knows. -/
theorem prepared_reply {header : TcpHeader} (ht : f.reply.transport = .tcp header)
    (flags : TcpFlags) :
    ∃ header', (f.prepared flags).reply = { f.reply with transport := .tcp header' } ∧
      header'.bytes.length = header.bytes.length ∧
      header'.fields = { header.fields with
        flags := .ofBits flags.bits
        sequence := f.sequence
        acknowledgement := f.expected
        window := f.windowToGrant.toUInt16 } := by
  unfold TcpFlow.prepared Reply.editTcp
  rw [ht]
  refine ⟨_, rfl, ?_, ?_⟩
  · rw [TcpHeader.length_setWindow, TcpHeader.length_setAcknowledgement,
      TcpHeader.length_setSequence, TcpHeader.length_setFlags]
  · simp only [TcpHeader.fields_setWindow, TcpHeader.fields_setAcknowledgement,
      TcpHeader.fields_setSequence, TcpHeader.fields_setFlags]

private theorem Healthy.prepared (hf : Healthy f) (flags : TcpFlags) :
    Plain (f.prepared flags).reply.ipv4 (f.prepared flags).reply.transport ∧
      ∃ header, (f.prepared flags).reply.transport = .tcp header ∧ header.flags = .ofBits flags.bits ∧
        header.sequence = f.sequence ∧ header.acknowledgement = f.expected ∧
        header.window = f.windowToGrant.toUInt16 := by
  obtain ⟨-, plain, protocol⟩ := hf
  cases ht : f.reply.transport with
  | udp h =>
    rw [ht] at protocol
    cases protocol
  | tcp h =>
    rw [ht] at plain
    obtain ⟨header, same, length, fields⟩ := prepared_reply ht flags
    rw [same]
    refine ⟨⟨plain.ipv4_length, plain.version_eq, plain.ipv4_declared, plain.protocol_eq, ?_, ?_⟩,
      header, rfl, congrArg TcpHeader.Fields.flags fields,
      congrArg TcpHeader.Fields.sequence fields, congrArg TcpHeader.Fields.acknowledgement fields,
      congrArg TcpHeader.Fields.window fields⟩
    · exact length.trans plain.transport_length
    · exact (congrArg TcpHeader.Fields.headerLength fields).trans plain.transport_declared

/-- A packet without payload says what the flow knows. -/
theorem Emits.segment_eq (h : Emits flags f out sent g out') (hf : Healthy f) :
    Segment.ofPacket sent.packet = .ok (some (f.segment flags [])) ∧ Healthy g ∧
      g.reply.data = f.reply.data := by
  obtain ⟨reply, built, rfl⟩ := h.built
  obtain ⟨plain, header, ht, hflags, hsequence, hacknowledgement, hwindow⟩ := hf.prepared flags
  obtain ⟨carries, control, rfl⟩ := Reply.withoutPayload_inv plain built
  refine ⟨?_, ⟨hf.sound, plain, congrArg TransportHeader.protocol ht⟩, ?_⟩
  · rw [carries.segment_eq plain ht, hflags, hsequence, hacknowledgement, hwindow]
    rfl
  · change (f.reply.editTcp _).data = _
    unfold Reply.editTcp
    split <;> rfl

/-- The bytes of a packet without payload say the same. -/
theorem Emits.read_eq (h : Emits flags f out sent g out') (hf : Healthy f) :
    Segment.ofBytes sent.packet.bytes = .ok (some (f.segment flags [])) := by
  refine Segment.ofBytes_eq ?_ (h.segment_eq hf).1
  obtain ⟨reply, built, -⟩ := h.built
  obtain ⟨plain, -⟩ := hf.prepared flags
  exact (Reply.withoutPayload_inv plain built).1.ofBytes_eq plain

theorem Reads.healthy (h : f.Reads size g) (hf : Healthy f) : Healthy g := by
  obtain ⟨reply, reserved, rfl⟩ := h.started
  obtain ⟨plain, header, ht, -⟩ := hf.prepared (.ack ∪ .psh)
  obtain ⟨-, data, rfl, -⟩ := Reply.reserve_inv reserved
  exact ⟨hf.sound, plain, congrArg TransportHeader.protocol ht⟩

/-- A data packet says what the flow knew before, carries what was read, and is kept. -/
theorem Reads.segment_eq (h : f.Reads size g) (hf : Healthy f) {reply reply' : Reply}
    (committed : g.reply.commit payload payload.length = .ok reply)
    (completed : reply.completeData = .ok (sent.packet, reply')) :
    Segment.ofPacket sent.packet = .ok (some (f.segment (.ack ∪ .psh) payload)) ∧
      Healthy { g with reply := reply' } ∧ reply'.latestData = .ok sent.packet := by
  obtain ⟨reserved, hr, rfl⟩ := h.started
  obtain ⟨plain, header, ht, hflags, hsequence, hacknowledgement, hwindow⟩ :=
    hf.prepared (.ack ∪ .psh)
  obtain ⟨-, data, rfl, filled⟩ := Reply.reserve_inv hr
  generalize hr' : ({ (f.prepared (.ack ∪ .psh)).reply with data } : Reply) = r at *
  obtain ⟨plain', ht'⟩ : Plain r.ipv4 r.transport ∧ r.transport = .tcp header := by
    subst hr'
    exact ⟨plain, ht⟩
  obtain ⟨carries, data', rfl, filled'⟩ :=
    Reply.commit_completeData_inv plain' (hr' ▸ filled) committed completed
  refine ⟨?_, ⟨hf.sound, plain', congrArg TransportHeader.protocol ht'⟩, ?_⟩
  · rw [carries.segment_eq plain' ht', hflags, hsequence, hacknowledgement, hwindow]
    rfl
  · rw [Reply.latestData, filled']
    exact carries.ofBytes_eq plain'

/-- The bytes of a data packet say the same. -/
theorem Reads.read_eq (h : f.Reads size g) (hf : Healthy f) {reply reply' : Reply}
    (committed : g.reply.commit payload payload.length = .ok reply)
    (completed : reply.completeData = .ok (sent.packet, reply')) :
    Segment.ofBytes sent.packet.bytes = .ok (some (f.segment (.ack ∪ .psh) payload)) := by
  obtain ⟨wording, -, latest⟩ := h.segment_eq hf committed completed
  refine Segment.ofBytes_eq ?_ wording
  rw [Packet.bytes_of_ofBytes latest]
  exact latest

theorem Writes.toList_drop {front bytes : Bytes} (h : f.Writes front) (hf : Healthy f)
    (taken : bytes = front.take bytes.length) :
    f.ring.toList = bytes ++ (f.ring.drop bytes.length).toList := by
  obtain ⟨front_eq, -, length_le⟩ := StreamRing.front_eq hf.sound h.nonempty h.front_eq
  have shorter : bytes.length ≤ front.length := by
    rw [taken]
    exact (List.length_take_le' ..)
  have first : bytes = f.ring.toList.take bytes.length := by
    rw [front_eq, List.take_take, Nat.min_eq_left shorter] at taken
    exact taken
  rw [StreamRing.toList_drop hf.sound (by omega)]
  exact (List.take_append_drop bytes.length _).symm.trans (congrArg (· ++ _) first.symm)

theorem Resets.healthy {cause : Cause} (h : f.Resets stimulus cause g) (hf : Healthy f) :
    Healthy g := by
  cases h with
  | noRequest _ _ _ => exact ⟨hf.sound, hf.plain, hf.protocol_eq⟩
  | request _ _ _ => exact hf
  | connectError _ _ => exact hf
  | noPeer _ _ => exact hf
  | readError reads _ => exact reads.healthy hf
  | writeError _ _ => exact hf

theorem Ends.healthy {ending : Ending} (h : Ends stimulus f out ending g out') (hf : Healthy f) :
    Healthy g := by
  cases h with
  | resetByDevice _ _ _ => exact hf
  | confirmed _ _ _ _ _ => exact ⟨hf.sound, hf.plain, hf.protocol_eq⟩
  | finished _ _ _ emits => exact (emits.segment_eq ⟨hf.sound, hf.plain, hf.protocol_eq⟩).2.1
  | refused _ _ => exact hf
  | disconnected _ => exact hf
  | reset resets emits => exact (emits.segment_eq (resets.healthy hf)).2.1

theorem Move.healthy (h : Move stimulus ⟨f, r, out⟩ mark ⟨g, r', out'⟩) (hf : Healthy f) :
    Healthy g := by
  obtain ⟨sound, plain, protocol⟩ := hf
  cases h with
  | opened _ _ _ _ => exact ⟨sound, plain, protocol⟩
  | reopened _ _ _ => exact ⟨sound, plain, protocol⟩
  | unconnected _ _ => exact ⟨sound, plain, protocol⟩
  | connected _ emits =>
    obtain ⟨-, ⟨sound, plain, protocol⟩, -⟩ := emits.segment_eq ⟨sound, plain, protocol⟩
    exact ⟨sound, plain, protocol⟩
  | acknowledged _ _ _ _ => exact ⟨sound, plain, protocol⟩
  | took _ _ _ _ _ pushed emits =>
    exact (emits.segment_eq ⟨sound.push pushed, plain, protocol⟩).2.1
  | ended _ _ _ emits =>
    obtain ⟨-, ⟨sound, plain, protocol⟩, -⟩ := emits.segment_eq ⟨sound, plain, protocol⟩
    exact ⟨sound, plain, protocol⟩
  | missed reads _ => exact reads.healthy ⟨sound, plain, protocol⟩
  | delivered reads _ _ committed completed _ =>
    obtain ⟨-, ⟨sound, plain, protocol⟩, -⟩ :=
      reads.segment_eq ⟨sound, plain, protocol⟩ committed completed
    exact ⟨sound, plain, protocol⟩
  | retried _ _ _ _ => exact ⟨sound, plain, protocol⟩
  | exhausted reads emits =>
    obtain ⟨sound, plain, protocol⟩ := reads.healthy ⟨sound, plain, protocol⟩
    obtain ⟨-, ⟨sound, plain, protocol⟩, -⟩ := emits.segment_eq ⟨sound, plain, protocol⟩
    exact ⟨sound, plain, protocol⟩
  | wrote _ _ _ => exact ⟨sound.drop, plain, protocol⟩
  | blocked _ _ => exact ⟨sound, plain, protocol⟩
  | widened _ _ _ emits => exact (emits.segment_eq ⟨sound, plain, protocol⟩).2.1
  | shut _ _ _ _ _ => exact ⟨sound, plain, protocol⟩
  | told _ _ => exact ⟨sound, plain, protocol⟩
  | closed _ ends _ =>
    obtain ⟨sound, plain, protocol⟩ := ends.healthy ⟨sound, plain, protocol⟩
    exact ⟨sound, plain, protocol⟩

/-- Every packet that is built acknowledges what has been taken and grants the room that is left. Only
one that delivers carries payload. -/
theorem Move.built_eq (hf : Healthy f) (move : Move stimulus ⟨f, r, out⟩ mark ⟨g, r', out'⟩)
    (built : mark.built? = some sent) :
    ∃ segment, Segment.ofPacket sent.packet = .ok (some segment) ∧
      segment.acknowledgement = g.expected ∧ segment.window = g.windowToGrant.toUInt16 ∧
      (segment.payload = [] ∨ ∃ size, mark = .delivered size segment.payload sent) := by
  have plain := hf.plain
  have protocol := hf.protocol_eq
  have emitted {flags : TcpFlags} {f' g' : TcpFlow} {out₁ out₂ : σ}
      (emits : Emits flags f' out₁ sent g' out₂) (hf' : Healthy f') (ring : g.ring = g'.ring)
      (expected : g.expected = g'.expected) :
      ∃ segment, Segment.ofPacket sent.packet = .ok (some segment) ∧
        segment.acknowledgement = g.expected ∧ segment.window = g.windowToGrant.toUInt16 ∧
        (segment.payload = [] ∨ ∃ size, mark = .delivered size segment.payload sent) := by
    refine ⟨_, (emits.segment_eq hf').1, ?_, ?_, .inl rfl⟩
    · exact (expected.trans emits.same.expected_eq).symm
    · rw [segment, windowToGrant, windowToGrant, ring, emits.same.ring_eq]
  cases move with
  | connected _ emits =>
    cases built
    exact emitted emits ⟨hf.sound, plain, protocol⟩ rfl rfl
  | took _ _ _ _ _ pushed emits =>
    cases built
    exact emitted emits ⟨hf.sound.push pushed, plain, protocol⟩ rfl rfl
  | ended _ _ _ emits =>
    cases built
    exact emitted emits ⟨hf.sound, plain, protocol⟩ rfl rfl
  | delivered reads _ _ committed completed _ =>
    cases built
    refine ⟨_, (reads.segment_eq hf committed completed).1, reads.same.expected_eq.symm, ?_,
      .inr ⟨_, rfl⟩⟩
    rw [segment, windowToGrant, windowToGrant, reads.same.ring_eq]
  | exhausted reads emits =>
    cases built
    have hg := reads.healthy hf
    exact emitted emits ⟨hg.sound, hg.plain, hg.protocol_eq⟩ rfl rfl
  | widened _ _ _ emits =>
    cases built
    exact emitted emits hf rfl rfl
  | closed _ ends _ =>
    cases ends with
    | finished _ _ _ emits =>
      cases built
      exact emitted emits ⟨hf.sound, plain, protocol⟩ rfl rfl
    | reset resets emits =>
      cases built
      exact emitted emits (resets.healthy hf) rfl rfl
    | _ => cases built
  | _ => cases built

end TcpFlow

end TunnelRelay
