import TunnelRelay.Proofs.Header.Layouts

/-!
# Independent header fields

After any sequence of edits a field reads as it was written last, and every bit of the header that belongs to
no edited field is as it was: options, reserved bits, and what shares a byte with an edited field.
-/

namespace TunnelRelay

/-- Two neighbouring parts of the same width change places, and nothing else does. -/
def Exchanged (offset width : Nat) (bytes bytes' : Bytes) : Prop :=
  ∃ front first second back, front.length = offset ∧ first.length = width ∧ second.length = width ∧
    bytes = front ++ first ++ second ++ back ∧ bytes' = front ++ second ++ first ++ back

section Exchange

variable {offset width : Nat} {bytes bytes' bytes'' : Bytes}

/-- Exchanging the parts again restores them. -/
theorem Exchanged.again (once : Exchanged offset width bytes bytes')
    (twice : Exchanged offset width bytes' bytes'') : bytes'' = bytes := by
  obtain ⟨front, first, second, back, front_length, first_length, second_length, rfl, rfl⟩ := once
  obtain ⟨front', second', first', back', front_length', second_length', first_length', same, rfl⟩ := twice
  simp only [List.append_assoc] at same
  obtain ⟨rfl, behind_front⟩ := List.append_inj same (front_length.trans front_length'.symm)
  obtain ⟨rfl, behind_second⟩ := List.append_inj behind_front (second_length.trans second_length'.symm)
  obtain ⟨rfl, rfl⟩ := List.append_inj behind_second (first_length.trans first_length'.symm)
  rfl

/-- A part is replaced as a whole. -/
theorem overlay_part {front part back new : Bytes} (same : new.length = part.length) :
    overlay (front ++ part ++ back) front.length new = front ++ new ++ back := by
  have whole : overlay part 0 new = new := by simp [overlay, same]
  have replaced : overlay (front ++ part ++ back) (front.length + 0) new =
      front ++ overlay part 0 new ++ back := overlay_append_middle (by omega)
  rwa [Nat.add_zero, whole] at replaced

/-- Each part written over the other exchanges them. -/
theorem exchanged_overlay {first second : Bytes} (fits : offset + width + width ≤ bytes.length)
    (first_eq : (bytes.drop offset).take width = first)
    (second_eq : (bytes.drop (offset + width)).take width = second) :
    Exchanged offset width bytes
      (overlay (overlay bytes offset second) (offset + width) first) := by
  have first_length : first.length = width := by
    rw [← first_eq, List.length_take, List.length_drop]
    omega
  have second_length : second.length = width := by
    rw [← second_eq, List.length_take, List.length_drop]
    omega
  have front_length : (bytes.take offset).length = offset := List.length_take_of_le (by omega)
  have behind_first : bytes.drop (offset + width) = second ++ bytes.drop (offset + width + width) := by
    rw [← second_eq, ← List.drop_drop (j := offset + width), List.take_append_drop]
  have behind_front : bytes.drop offset = first ++ bytes.drop (offset + width) := by
    rw [← first_eq, ← List.drop_drop, List.take_append_drop]
  have parts : bytes = bytes.take offset ++ first ++ second ++ bytes.drop (offset + width + width) := by
    rw [List.append_assoc, List.append_assoc, ← behind_first, ← behind_front, List.take_append_drop]
  generalize bytes.take offset = front at parts front_length
  generalize bytes.drop (offset + width + width) = back at parts
  refine ⟨front, first, second, back, front_length, first_length, second_length, parts, ?_⟩
  have inner : overlay bytes offset second = front ++ second ++ second ++ back := by
    rw [parts, List.append_assoc, ← front_length, overlay_part (second_length.trans first_length.symm),
      ← List.append_assoc]
  have there : offset + width = (front ++ second).length := by
    rw [List.length_append, front_length, second_length]
  rw [inner, there, overlay_part (first_length.trans second_length.symm)]

/-- Two words that are each written where the other was read are exchanged. -/
theorem exchanged_word16 (fits : offset + 2 + 2 ≤ bytes.length) :
    Exchanged offset 2 bytes (overlay (overlay bytes offset (bytesOf16 (word16At bytes (offset + 2))))
      (offset + 2) (bytesOf16 (word16At bytes offset))) :=
  exchanged_overlay fits (bytesOf16_word16At (by omega)).symm (bytesOf16_word16At (by omega)).symm

theorem exchanged_word32 (fits : offset + 4 + 4 ≤ bytes.length) :
    Exchanged offset 4 bytes (overlay (overlay bytes offset (bytesOf32 (word32At bytes (offset + 4))))
      (offset + 4) (bytesOf32 (word32At bytes offset))) :=
  exchanged_overlay fits (bytesOf32_word32At (by omega)).symm (bytesOf32_word32At (by omega)).symm

end Exchange

namespace Ipv4Header

variable (h : Ipv4Header)

theorem exchanged_swapAddresses : Exchanged 12 4 h.bytes h.swapAddresses.bytes :=
  exchanged_word32 h.complete

theorem swapAddresses_swapAddresses : h.swapAddresses.swapAddresses = h :=
  eq_of_bytes (h.exchanged_swapAddresses.again h.swapAddresses.exchanged_swapAddresses)

/-- No edit of an IPv4 header changes the version in its first byte, or an option. -/
theorem run_untouched {edits : List Edit} {h h' : Ipv4Header} (done : layout.run edits h = .ok h') :
    h'.version = h.version ∧ h'.bytes.drop ipv4MinHeader = h.bytes.drop ipv4MinHeader := by
  constructor
  · refine lawful.read_of_never done .version ?_
    intro e _
    cases e <;> rfl
  · refine lawful.independent.drop_eq done ?_
    intro f i behind
    unfold ipv4MinHeader at behind
    cases f <;> simp [layout, Field.place, wholeBytes, bitsAt] <;> omega

end Ipv4Header

namespace TcpHeader

variable (h : TcpHeader)

theorem exchanged_swapPorts : Exchanged 0 2 h.bytes h.swapPorts.bytes :=
  exchanged_word16 (Nat.le_trans (by decide) h.complete)

theorem swapPorts_swapPorts : h.swapPorts.swapPorts = h :=
  eq_of_bytes (h.exchanged_swapPorts.again h.swapPorts.exchanged_swapPorts)

/-- No edit of a TCP header changes the reserved bits of byte 12, or an option. -/
theorem run_untouched {edits : List Edit} {h h' : TcpHeader} (done : layout.run edits h = .ok h') :
    h'.bytes.getD 12 0 &&& 0x0e = h.bytes.getD 12 0 &&& 0x0e ∧
      h'.bytes.drop tcpMinHeader = h.bytes.drop tcpMinHeader := by
  constructor
  · refine lawful.run_elsewhere done ?_
    intro e _ f _
    cases f <;> decide
  · refine lawful.independent.drop_eq done ?_
    intro f i behind
    unfold tcpMinHeader at behind
    cases f <;> simp [layout, Field.place, wholeBytes, bitsAt] <;> omega

section SharedByte

variable {h} {front back : Bytes} {shared low : UInt8}

private theorem exists_shared_byte (h : TcpHeader) :
    ∃ front shared low back, front.length = 12 ∧ h.bytes = front ++ [shared, low] ++ back := by
  have complete : 20 ≤ h.bytes.length := h.complete
  refine ⟨h.bytes.take 12, h.bytes[12], h.bytes[13], h.bytes.drop 14,
    List.length_take_of_le (by omega), ?_⟩
  rw [List.append_assoc, List.cons_append, List.cons_append, List.nil_append,
    ← List.drop_eq_getElem_cons, ← List.drop_eq_getElem_cons, List.take_append_drop]

private theorem getD_shared_byte (twelve : front.length = 12) :
    (front ++ [shared, low] ++ back).getD 12 0 = shared := by
  rw [← twelve, List.getD_eq_getElem?_getD, List.append_assoc,
    List.getElem?_append_right (Nat.le_refl _), Nat.sub_self]
  rfl

private theorem bytes_setFlags (twelve : front.length = 12)
    (parts : h.bytes = front ++ [shared, low] ++ back) (flags : TcpFlags) :
    (h.setFlags flags).bytes = front ++
      [(shared &&& (0xfe : UInt8)) ||| ((flags.bits >>> 8).toUInt8 &&& (1 : UInt8)), flags.bits.toUInt8] ++ back := by
  change overlay h.bytes 12
    [(h.bytes.getD 12 0 &&& (0xfe : UInt8)) ||| ((flags.bits >>> 8).toUInt8 &&& (1 : UInt8)), flags.bits.toUInt8] = _
  rw [parts, getD_shared_byte twelve, ← twelve]
  exact overlay_part rfl

private theorem bytes_dropOptions (twelve : front.length = 12)
    (parts : h.bytes = front ++ [shared, low] ++ back) :
    h.dropOptions.bytes = front ++ [(shared &&& 0x0f) ||| 0x50, low] ++ back := by
  change overlay h.bytes 12 [(h.bytes.getD 12 0 &&& 0x0f) ||| 0x50] = _
  rw [parts, getD_shared_byte twelve]
  have split_byte (byte : UInt8) : front ++ [byte, low] ++ back = front ++ [byte] ++ ([low] ++ back) := by
    simp
  rw [split_byte, split_byte, ← twelve]
  exact overlay_part rfl

private theorem shared_byte_commutes (byte ns : UInt8) :
    (((byte &&& (0xfe : UInt8)) ||| (ns &&& 1)) &&& 0x0f) ||| 0x50 =
      (((byte &&& (0x0f : UInt8)) ||| 0x50) &&& 0xfe) ||| (ns &&& 1) := by
  have key : ∀ x : BitVec 8, ∀ bit : Fin 2,
      (((x &&& 0xfe#8) ||| BitVec.ofNat 8 bit) &&& 0x0f#8) ||| 0x50#8 =
        (((x &&& 0x0f#8) ||| 0x50#8) &&& 0xfe#8) ||| BitVec.ofNat 8 bit := by
    decide +kernel
  have bit : (ns &&& 1).toBitVec = BitVec.ofNat 8 (ns.toNat % 2) := by
    apply BitVec.eq_of_toNat_eq
    simp [Nat.and_one_is_mod]
    omega
  have same := key byte.toBitVec ⟨ns.toNat % 2, Nat.mod_lt _ (by decide)⟩
  rw [← bit] at same
  exact UInt8.toBitVec_inj.1 same

/-- Flags and data offset share a byte, and may be written in either order. -/
theorem dropOptions_setFlags (h : TcpHeader) (flags : TcpFlags) :
    (h.setFlags flags).dropOptions = h.dropOptions.setFlags flags := by
  obtain ⟨front, shared, low, back, twelve, parts⟩ := exists_shared_byte h
  apply eq_of_bytes
  rw [bytes_dropOptions twelve (bytes_setFlags twelve parts flags),
    bytes_setFlags twelve (bytes_dropOptions twelve parts) flags, shared_byte_commutes]

/-- In either order both have their effect, and the reserved bits between them stay. -/
theorem fields_dropOptions_setFlags (h : TcpHeader) {flags : TcpFlags}
    (known : TcpFlags.ofBits flags.bits = flags) :
    (h.setFlags flags).dropOptions.fields = { h.fields with flags, headerLength := tcpMinHeader } := by
  rw [fields_dropOptions, fields_setFlags, known]

end SharedByte

end TcpHeader

namespace UdpHeader

variable (h : UdpHeader)

theorem exchanged_swapPorts : Exchanged 0 2 h.bytes h.swapPorts.bytes :=
  exchanged_word16 (Nat.le_trans (by decide) h.complete)

theorem swapPorts_swapPorts : h.swapPorts.swapPorts = h :=
  eq_of_bytes (h.exchanged_swapPorts.again h.swapPorts.exchanged_swapPorts)

/-- No edit of a UDP header changes what lies behind it. -/
theorem run_untouched {edits : List Edit} {h h' : UdpHeader} (done : layout.run edits h = .ok h') :
    h'.bytes.drop udpHeaderLength = h.bytes.drop udpHeaderLength := by
  refine lawful.independent.drop_eq done ?_
  intro f i behind
  unfold udpHeaderLength at behind
  cases f <;> simp [layout, Field.place, wholeBytes] <;> omega

end UdpHeader

/-- The fields of all three headers are independent: after any sequence of edits a field reads as it was
written last, and every bit that belongs to no edited field is as it was. That holds in particular of the IP
version, of the reserved bits of a TCP header and of all options. Flags and data offset of a TCP header do not
disturb each other, and what exchanges two fields exchanges just these, and back again. -/
theorem fields_independent :
    Ipv4Header.layout.Independent ∧ TcpHeader.layout.Independent ∧ UdpHeader.layout.Independent ∧
    (∀ edits (h h' : Ipv4Header), Ipv4Header.layout.run edits h = .ok h' →
      h'.version = h.version ∧ h'.bytes.drop ipv4MinHeader = h.bytes.drop ipv4MinHeader) ∧
    (∀ edits (h h' : TcpHeader), TcpHeader.layout.run edits h = .ok h' →
      h'.bytes.getD 12 0 &&& 0x0e = h.bytes.getD 12 0 &&& 0x0e ∧
        h'.bytes.drop tcpMinHeader = h.bytes.drop tcpMinHeader) ∧
    (∀ edits (h h' : UdpHeader), UdpHeader.layout.run edits h = .ok h' →
      h'.bytes.drop udpHeaderLength = h.bytes.drop udpHeaderLength) ∧
    (∀ (h : TcpHeader) (flags : TcpFlags), TcpFlags.ofBits flags.bits = flags →
      (h.setFlags flags).dropOptions = h.dropOptions.setFlags flags ∧
        (h.setFlags flags).dropOptions.fields = { h.fields with flags, headerLength := tcpMinHeader }) ∧
    (∀ h : Ipv4Header, Exchanged 12 4 h.bytes h.swapAddresses.bytes ∧ h.swapAddresses.swapAddresses = h) ∧
    (∀ h : TcpHeader, Exchanged 0 2 h.bytes h.swapPorts.bytes ∧ h.swapPorts.swapPorts = h) ∧
    (∀ h : UdpHeader, Exchanged 0 2 h.bytes h.swapPorts.bytes ∧ h.swapPorts.swapPorts = h) := by
  refine ⟨Ipv4Header.lawful.independent, TcpHeader.lawful.independent, UdpHeader.lawful.independent,
    ?_, ?_, ?_, ?_, ?_, ?_, ?_⟩
  · intro edits h h' done
    exact Ipv4Header.run_untouched done
  · intro edits h h' done
    exact TcpHeader.run_untouched done
  · intro edits h h' done
    exact UdpHeader.run_untouched done
  · intro h flags known
    exact ⟨h.dropOptions_setFlags flags, h.fields_dropOptions_setFlags known⟩
  · intro h
    exact ⟨h.exchanged_swapAddresses, h.swapAddresses_swapAddresses⟩
  · intro h
    exact ⟨h.exchanged_swapPorts, h.swapPorts_swapPorts⟩
  · intro h
    exact ⟨h.exchanged_swapPorts, h.swapPorts_swapPorts⟩

/-- A TCP header with an option, whose byte 12 has all its bits set but one. -/
def crowdedHeader : TcpHeader where
  bytes := [0x30, 0x39, 0, 80, 0, 0, 0, 1, 0, 0, 0, 0, 0x6f, 0x02, 16, 0, 0, 0, 0, 0, 2, 4, 5, 0xb4]
  complete := by decide

/-- Edits of every part of byte 12, among edits of other fields. -/
def crowdedEdits : List TcpHeader.Edit :=
  [.sequence 5, .flags (.syn ∪ .ack) rfl, .swapPorts, .dropOptions]

theorem fields_independent_crowdedHeader :
    ∃ h' : TcpHeader, TcpHeader.layout.run (crowdedEdits ++ [.sequence 6]) crowdedHeader = .ok h' ∧
      h'.sequence = 6 ∧ h'.window = crowdedHeader.window ∧
      h'.bytes.getD 12 0 &&& 0x0e = crowdedHeader.bytes.getD 12 0 &&& 0x0e ∧
      h'.bytes.drop tcpMinHeader = crowdedHeader.bytes.drop tcpMinHeader ∧
      (crowdedHeader.setFlags (.syn ∪ .ack)).dropOptions =
        crowdedHeader.dropOptions.setFlags (.syn ∪ .ack) := by
  obtain ⟨-, tcp, -, -, untouched, -, shared, -⟩ := fields_independent
  have given : ∀ e ∈ crowdedEdits ++ [.sequence 6], e.computes = false := by
    intro e member
    cases e <;> first | rfl | simp [crowdedEdits] at member
  have unset : ∀ e ∈ crowdedEdits ++ [.sequence 6], e.written .window = none := by
    intro e member
    cases e <;> first | rfl | simp [crowdedEdits] at member
  obtain ⟨h', done⟩ := tcp.isOk _ crowdedHeader given
  obtain ⟨between, -, sequence⟩ := tcp.last done .sequence rfl (List.forall_mem_nil _)
  have window := tcp.never done .window unset
  obtain ⟨reserved, options⟩ := untouched _ _ _ done
  obtain ⟨commutes, -⟩ := shared crowdedHeader (.syn ∪ .ack) rfl
  exact ⟨h', done, (Except.ok.inj sequence).symm, window, reserved, options, commutes⟩

end TunnelRelay
