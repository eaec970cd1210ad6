import TunnelRelay.Proofs.Composing
import TunnelRelay.Proofs.Packet.Parsing

/-!
# Replies in use

Between two packets a flow edits the transport header of its reply, starts a data packet and leaves it
unfinished, or finishes it later. Whatever is done in whatever order, the headers stay without options and
the slabs as large as they were.
-/

namespace TunnelRelay

/-- A new value for a field in which the segments of a flow differ. -/
inductive TcpEdit where
  | sequence (n : UInt32)
  | acknowledgement (n : UInt32)
  | flags (flags : TcpFlags) (known : TcpFlags.ofBits flags.bits = flags)
  | window (n : UInt16)

namespace TcpEdit

def apply : TcpEdit → TcpHeader → TcpHeader
  | sequence n, h => h.setSequence n
  | acknowledgement n, h => h.setAcknowledgement n
  | flags f _, h => h.setFlags f
  | window n, h => h.setWindow n

def sequence? : TcpEdit → Option UInt32
  | sequence n => some n
  | _ => none

def acknowledgement? : TcpEdit → Option UInt32
  | acknowledgement n => some n
  | _ => none

def flags? : TcpEdit → Option TcpFlags
  | flags f _ => some f
  | _ => none

def window? : TcpEdit → Option UInt16
  | window n => some n
  | _ => none

theorem fields_apply (e : TcpEdit) (h : TcpHeader) :
    (e.apply h).fields = { h.fields with
      sequence := e.sequence?.getD h.sequence
      acknowledgement := e.acknowledgement?.getD h.acknowledgement
      flags := e.flags?.getD h.flags
      window := e.window?.getD h.window } := by
  cases e with
  | sequence n => exact h.fields_setSequence n
  | acknowledgement n => exact h.fields_setAcknowledgement n
  | flags f known =>
    rw [apply, h.fields_setFlags, known]
    rfl
  | window n => exact h.fields_setWindow n

theorem length_apply (e : TcpEdit) (h : TcpHeader) : (e.apply h).bytes.length = h.bytes.length := by
  cases e with
  | sequence n => exact h.length_setSequence n
  | acknowledgement n => exact h.length_setAcknowledgement n
  | flags f known => exact h.length_setFlags f
  | window n => exact h.length_setWindow n

end TcpEdit

/-- Any other change to a transport header, of the kinds that both protocols have. -/
inductive TransportEdit where
  | sourcePort (port : UInt16)
  | destinationPort (port : UInt16)
  | swapPorts
  | dropOptions
  | payloadLength (n : UInt16)
  | checksum (source destination : UInt32) (payload : Bytes)

namespace TransportEdit

def apply : TransportEdit → TransportHeader → Checked TransportHeader
  | sourcePort port, .tcp h => .ok (.tcp (h.setSourcePort port))
  | sourcePort port, .udp h => .ok (.udp (h.setSourcePort port))
  | destinationPort port, .tcp h => .ok (.tcp (h.setDestinationPort port))
  | destinationPort port, .udp h => .ok (.udp (h.setDestinationPort port))
  | swapPorts, t => .ok t.swapPorts
  | dropOptions, t => .ok t.dropOptions
  | payloadLength n, t => t.setPayloadLength n
  | checksum source destination payload, t => t.updateChecksum source destination payload

/-- Lengths that the headers can declare, and payloads that fit a packet. -/
def InRange : TransportEdit → Prop
  | payloadLength n => udpHeaderLength + n.toNat < 0x10000
  | checksum _ _ payload => tcpMinHeader + payload.length ≤ maxPacketLength
  | _ => True

variable {ipv4 : Ipv4Header} {t t' : TransportHeader} {e : TransportEdit}

private theorem level_apply (declared : t.headerLength = t.protocol.minHeader)
    (done : e.apply t = .ok t') :
    t'.protocol = t.protocol ∧ t'.bytes.length = t.bytes.length ∧
      t'.headerLength = t.protocol.minHeader := by
  have of_alike (same : t.Alike t') : t'.protocol = t.protocol ∧ t'.bytes.length = t.bytes.length ∧
      t'.headerLength = t.protocol.minHeader :=
    ⟨same.protocol_eq, same.length_eq, same.headerLength_eq.trans declared⟩
  cases e with
  | sourcePort port =>
    cases t with
    | tcp header =>
      cases done
      have same := congrArg TcpHeader.Fields.headerLength (header.fields_setSourcePort port)
      exact ⟨rfl, header.length_setSourcePort port, same.trans declared⟩
    | udp header =>
      cases done
      exact ⟨rfl, header.length_setSourcePort port, rfl⟩
  | destinationPort port =>
    cases t with
    | tcp header =>
      cases done
      have same := congrArg TcpHeader.Fields.headerLength (header.fields_setDestinationPort port)
      exact ⟨rfl, header.length_setDestinationPort port, same.trans declared⟩
    | udp header =>
      cases done
      exact ⟨rfl, header.length_setDestinationPort port, rfl⟩
  | swapPorts =>
    cases t with
    | tcp header =>
      cases done
      have same := congrArg TcpHeader.Fields.headerLength header.fields_swapPorts
      exact ⟨rfl, header.length_swapPorts, same.trans declared⟩
    | udp header =>
      cases done
      exact ⟨rfl, header.length_swapPorts, rfl⟩
  | dropOptions =>
    cases done
    exact ⟨t.protocol_dropOptions, t.length_dropOptions, t.headerLength_dropOptions⟩
  | payloadLength n => exact of_alike (TransportHeader.alike_setPayloadLength done)
  | checksum source destination payload => exact of_alike (TransportHeader.alike_updateChecksum done)

/-- A header without options stays one, of its protocol. -/
theorem plain_apply (h : Plain ipv4 t) (done : e.apply t = .ok t') :
    Plain ipv4 t' ∧ t'.bytes.length = t.bytes.length := by
  obtain ⟨protocol, length, declared⟩ := level_apply h.transport_declared done
  refine ⟨⟨h.ipv4_length, h.version_eq, h.ipv4_declared, ?_, ?_, ?_⟩, length⟩
  · rw [protocol, h.protocol_eq]
  · rw [length, protocol, h.transport_length]
  · rw [declared, protocol]

theorem apply_isOk (h : Plain ipv4 t) (inRange : e.InRange) : ∃ t', e.apply t = .ok t' := by
  cases e with
  | sourcePort port => cases t <;> exact ⟨_, rfl⟩
  | destinationPort port => cases t <;> exact ⟨_, rfl⟩
  | swapPorts => exact ⟨_, rfl⟩
  | dropOptions => exact ⟨_, rfl⟩
  | payloadLength n =>
    cases t with
    | tcp header => exact ⟨_, rfl⟩
    | udp header => exact TransportHeader.setPayloadLength_isOk (.udp header) inRange
  | checksum source destination payload =>
    have whole : t.headerLength = t.bytes.length := h.transport_declared.trans h.transport_length.symm
    have short : t.bytes.length + payload.length ≤ maxPacketLength := by
      have most : t.protocol.minHeader ≤ tcpMinHeader := by
        cases t.protocol <;> decide
      rw [h.transport_length]
      exact Nat.le_trans (Nat.add_le_add_right most _) inRange
    obtain ⟨t', updated, -⟩ := t.updateChecksum_verifies source destination whole short
    exact ⟨t', updated⟩

end TransportEdit

namespace Reply

inductive Operation where
  | set (e : TcpEdit)
  | edit (e : TransportEdit)
  | reserve (limit : Nat)
  | commit (bytes : Bytes) (n : Nat)
  | completeData
  | withPayload (payload : Bytes)
  | withoutPayload

def Operation.set? : Operation → Option TcpEdit
  | set e => some e
  | _ => none

def Operation.perform (r : Reply) : Operation → Checked Reply
  | set e => .ok (r.editTcp e.apply)
  | edit e => r.editTransport e.apply
  | reserve limit => Prod.snd <$> r.reserve limit
  | commit bytes n => r.commit bytes n
  | completeData => Prod.snd <$> r.completeData
  | withPayload payload => Prod.snd <$> r.withPayload payload
  | withoutPayload => Prod.snd <$> r.withoutPayload

def performAll (r : Reply) (operations : List Operation) : Checked Reply :=
  operations.foldlM Operation.perform r

/-- The headers are the same, and the slabs as large. -/
structure Refills (r r' : Reply) : Prop where
  ipv4_eq : r'.ipv4 = r.ipv4
  transport_eq : r'.transport = r.transport
  data_capacity : r'.data.capacity = r.data.capacity
  control_capacity : r'.control.capacity = r.control.capacity

variable {r r' : Reply} {packet : Packet} {slab slab' : Slab} {operation : Operation}
  {operations : List Operation}

theorem Refills.equipped (h : r.Equipped) (refills : r.Refills r') : r'.Equipped := by
  obtain ⟨ipv4, transport, data, control⟩ := refills
  obtain ⟨plain, capacity, capacity'⟩ := h
  refine ⟨by rwa [ipv4, transport], data.trans capacity, ?_⟩
  rw [control, capacity', headers, headers, ipv4, transport]

/-- A completed packet takes the place of what was filled, and is found by judging it again. -/
theorem complete_slab (h : r.complete slab = .ok (packet, slab')) :
    slab' = { slab with filled := packet.bytes } ∧ packet.bytes.length = slab.length ∧
      Packet.ofBytes packet.bytes = .ok packet := by
  simp only [complete, checked_bind_eq_ok, checked_pure_eq_ok] at h
  obtain ⟨_, enough, n, -, total, -, front, sliced, ipv4, viewed, middle, sliced', transport, viewed',
    transport', declared, whole, judged, packet, done, ⟨⟩⟩ := h
  replace enough := require_eq_ok.1 enough
  have front_length := length_of_slice sliced
  have middle_length := length_of_slice sliced'
  rw [← Ipv4Header.ofBytes_eq_ok_iff.1 viewed] at front_length
  rw [← (TransportHeader.ofBytes_eq_ok_iff.1 viewed').2,
    ← (TransportHeader.alike_setPayloadLength declared).length_eq] at middle_length
  have total_length : (ipv4.setTotalLength total).bytes.length = ipv4.bytes.length :=
    Ipv4Header.length_write ..
  obtain ⟨judged', same⟩ := Packet.ofBytes_withChecksums judged done
  have whole_eq := congrArg List.length (Packet.bytes_of_ofBytes judged)
  have complete : ipv4MinHeader ≤ r.headers.length := by
    rw [headers, List.length_append]
    exact Nat.le_add_right_of_le r.ipv4.complete
  unfold Packet.length at same
  simp only [List.length_append, List.length_drop] at whole_eq
  unfold Slab.length at enough ⊢
  exact ⟨rfl, by omega, judged'⟩

theorem reserve_refills {limit room : Nat} (h : r.reserve limit = .ok (room, r')) : r.Refills r' := by
  simp only [reserve, checked_bind_eq_ok, checked_pure_eq_ok] at h
  obtain ⟨data, put, _, -, ⟨⟩⟩ := h
  obtain ⟨-, capacity⟩ := Slab.filled_of_put put
  exact ⟨rfl, rfl, capacity.trans r.data.capacity_clear, rfl⟩

theorem commit_refills {bytes : Bytes} {n : Nat} (h : r.commit bytes n = .ok r') : r.Refills r' := by
  simp only [commit, checked_bind_eq_ok, checked_pure_eq_ok] at h
  obtain ⟨laid, lay, data, advance, rfl⟩ := h
  obtain ⟨-, -, capacity⟩ := Slab.ahead_of_lay lay
  obtain ⟨-, capacity'⟩ := Slab.filled_of_advance advance
  exact ⟨rfl, rfl, capacity'.trans capacity, rfl⟩

/-- The packet that was completed last can be had again. -/
theorem completeData_inv (h : r.completeData = .ok (packet, r')) :
    r.Refills r' ∧ r'.latestData = .ok packet := by
  simp only [completeData, checked_bind_eq_ok, checked_pure_eq_ok] at h
  obtain ⟨⟨packet, data⟩, completed, ⟨⟩⟩ := h
  obtain ⟨rfl, length, judged⟩ := complete_slab completed
  exact ⟨⟨rfl, rfl, capacity_refill length, rfl⟩, judged⟩

theorem withPayload_inv {payload : Bytes} (h : r.withPayload payload = .ok (packet, r')) :
    r.Refills r' ∧ r'.latestData = .ok packet := by
  simp only [withPayload, checked_bind_eq_ok, checked_pure_eq_ok] at h
  obtain ⟨_, -, started, put, full, put', ⟨packet, data⟩, completed, ⟨⟩⟩ := h
  obtain ⟨rfl, length, judged⟩ := complete_slab completed
  obtain ⟨-, capacity⟩ := Slab.filled_of_put put
  obtain ⟨-, capacity'⟩ := Slab.filled_of_put put'
  have same := capacity'.trans (capacity.trans r.data.capacity_clear)
  exact ⟨⟨rfl, rfl, (capacity_refill length).trans same, rfl⟩, judged⟩

/-- A packet without payload does not touch the slab of data packets. -/
theorem withoutPayload_refills (h : r.withoutPayload = .ok (packet, r')) :
    r.Refills r' ∧ r'.data = r.data := by
  simp only [withoutPayload, checked_bind_eq_ok, checked_pure_eq_ok] at h
  obtain ⟨started, put, ⟨packet, control⟩, completed, ⟨⟩⟩ := h
  obtain ⟨rfl, length, -⟩ := complete_slab completed
  obtain ⟨-, capacity⟩ := Slab.filled_of_put put
  have same := capacity.trans r.control.capacity_clear
  exact ⟨⟨rfl, rfl, rfl, (capacity_refill length).trans same⟩, rfl⟩

/-- Everything that can be done edits the headers or refills the slabs. -/
theorem perform_inv (done : operation.perform r = .ok r') :
    (∃ e, operation = .set e ∧ r' = r.editTcp e.apply) ∨
      (∃ e t, operation = .edit e ∧ e.apply r.transport = .ok t ∧ r' = { r with transport := t }) ∨
      operation.set? = none ∧ r.Refills r' := by
  cases operation with
  | set e =>
    cases done
    exact .inl ⟨e, rfl, rfl⟩
  | edit e =>
    simp only [Operation.perform, editTransport, checked_bind_eq_ok, checked_pure_eq_ok] at done
    obtain ⟨t, applied, rfl⟩ := done
    exact .inr (.inl ⟨e, t, rfl, applied, rfl⟩)
  | reserve limit =>
    simp only [Operation.perform, checked_map_eq_ok] at done
    obtain ⟨⟨room, r'⟩, reserved, rfl⟩ := done
    exact .inr (.inr ⟨rfl, reserve_refills reserved⟩)
  | commit bytes n => exact .inr (.inr ⟨rfl, commit_refills done⟩)
  | completeData =>
    simp only [Operation.perform, checked_map_eq_ok] at done
    obtain ⟨⟨packet, r'⟩, completed, rfl⟩ := done
    exact .inr (.inr ⟨rfl, (completeData_inv completed).1⟩)
  | withPayload payload =>
    simp only [Operation.perform, checked_map_eq_ok] at done
    obtain ⟨⟨packet, r'⟩, completed, rfl⟩ := done
    exact .inr (.inr ⟨rfl, (withPayload_inv completed).1⟩)
  | withoutPayload =>
    simp only [Operation.perform, checked_map_eq_ok] at done
    obtain ⟨⟨packet, r'⟩, completed, rfl⟩ := done
    exact .inr (.inr ⟨rfl, (withoutPayload_refills completed).1⟩)

theorem Equipped.set (h : r.Equipped) (e : TcpEdit) : (r.editTcp e.apply).Equipped :=
  h.editTcp fun header =>
    ⟨e.length_apply header, congrArg TcpHeader.Fields.headerLength (e.fields_apply header)⟩

theorem Equipped.edit (h : r.Equipped) {e : TransportEdit} {t : TransportHeader}
    (done : e.apply r.transport = .ok t) : Equipped { r with transport := t } := by
  obtain ⟨plain, data, control⟩ := h
  obtain ⟨plain', length⟩ := TransportEdit.plain_apply plain done
  refine ⟨plain', data, control.trans ?_⟩
  rw [headers, headers, List.length_append, List.length_append, length]

theorem Equipped.perform (h : r.Equipped) (done : operation.perform r = .ok r') : r'.Equipped := by
  rcases perform_inv done with ⟨e, -, rfl⟩ | ⟨e, t, -, applied, rfl⟩ | ⟨-, refills⟩
  · exact h.set e
  · exact h.edit applied
  · exact refills.equipped h

theorem performAll_cons : r.performAll (operation :: operations) =
    operation.perform r >>= fun r => r.performAll operations := List.foldlM_cons

theorem Equipped.performAll (h : r.Equipped) (done : r.performAll operations = .ok r') :
    r'.Equipped := by
  induction operations generalizing r with
  | nil =>
    cases done
    exact h
  | cons operation rest ih =>
    rw [performAll_cons, checked_bind_eq_ok] at done
    obtain ⟨middle, first, others⟩ := done
    exact ih (h.perform first) others

end Reply

end TunnelRelay
