import TunnelRelay.Framing
import TunnelRelay.Proofs.Bytes
import TunnelRelay.Proofs.Calls
import TunnelRelay.Proofs.Packet

/-!
# Where packets end

A byte string splits into whole packets and a rest in exactly one way, and more bytes only go on where
the rest begins. The row of cells holds the rest: reading appends to it, moving it to the front
changes nothing, and taking a packet out removes that packet's bytes.
-/

namespace TunnelRelay

open Act

/-- The bytes are one packet, from the first to the last. -/
structure Whole (packet : Bytes) : Prop where
  declared : (declaredLength? packet).map UInt16.toNat = some packet.length
  complete : ipv4MinHeader ≤ packet.length

variable {packet bytes more rest rest' : Bytes} {packets packets' : List Bytes} {n : Nat}

theorem declaredLength?_append (h : 4 ≤ bytes.length) :
    declaredLength? (bytes ++ more) = declaredLength? bytes := by
  have long : ¬(bytes ++ more).length < 4 := by
    rw [List.length_append]
    omega
  rw [declaredLength?, declaredLength?, if_neg long, if_neg (by omega)]
  simp only [word16At, List.getD_eq_getElem?_getD]
  rw [List.getElem?_append_left (by omega), List.getElem?_append_left (by omega)]

namespace Prospect

theorem of_eq_packet_iff : of bytes = .packet n ↔
    (declaredLength? bytes).map UInt16.toNat = some n ∧ ipv4MinHeader ≤ n ∧ n ≤ bytes.length := by
  unfold of
  cases hd : declaredLength? bytes with
  | none => simp
  | some declared =>
    simp only [Option.map_some, Option.some.injEq]
    by_cases small : declared.toNat < ipv4MinHeader
    · rw [if_pos small]
      constructor
      · rintro ⟨⟩
      · rintro ⟨rfl, h, -⟩
        omega
    rw [if_neg small]
    by_cases short : bytes.length < declared.toNat
    · rw [if_pos short]
      constructor
      · rintro ⟨⟩
      · rintro ⟨rfl, -, h⟩
        omega
    · rw [if_neg short]
      constructor
      · rintro ⟨⟩
        exact ⟨rfl, by omega, by omega⟩
      · rintro ⟨rfl, -, -⟩
        rfl

/-- What is seen of a packet that is whole or corrupt stays so, whatever follows. -/
theorem of_append (h : (∃ n, of bytes = .packet n) ∨ ∃ n, of bytes = .corrupt n) :
    of (bytes ++ more) = of bytes := by
  unfold of at *
  by_cases short : bytes.length < 4
  · simp [declaredLength?, short] at h
  rw [declaredLength?_append (by omega)]
  cases hd : declaredLength? bytes with
  | none => rfl
  | some declared =>
    simp only [hd] at h ⊢
    by_cases small : declared.toNat < ipv4MinHeader
    · rw [if_pos small, if_pos small]
    have fits : ¬bytes.length < declared.toNat := by
      intro short
      simp [small, short] at h
    have fits' : ¬(bytes ++ more).length < declared.toNat := by
      rw [List.length_append]
      omega
    rw [if_neg fits, if_neg fits']

end Prospect

theorem Whole.of_append (h : Whole packet) (more : Bytes) :
    Prospect.of (packet ++ more) = .packet packet.length := by
  have seen : Prospect.of packet = .packet packet.length :=
    Prospect.of_eq_packet_iff.2 ⟨h.declared, h.complete, Nat.le_refl _⟩
  rw [Prospect.of_append (.inl ⟨_, seen⟩), seen]

theorem whole_of_prospect (h : Prospect.of bytes = .packet n) :
    Whole (bytes.take n) ∧ n ≤ bytes.length := by
  obtain ⟨declared, complete, fits⟩ := Prospect.of_eq_packet_iff.1 h
  have length : (bytes.take n).length = n := List.length_take_of_le fits
  have long : 4 ≤ (bytes.take n).length := by
    have : ipv4MinHeader = 20 := rfl
    omega
  refine ⟨⟨?_, by omega⟩, fits⟩
  have same : declaredLength? (bytes.take n ++ bytes.drop n) = declaredLength? (bytes.take n) :=
    declaredLength?_append long
  rw [← same, List.take_append_drop, declared, length]

private theorem exists_transportAt (bytes : Bytes) (number : UInt8) (offset : Nat) :
    ∃ found, transportAt bytes number offset = .ok found := by
  unfold transportAt
  dsimp only
  split
  · exact ⟨_, rfl⟩
  · by_cases complete : tcpMinHeader ≤ bytes.length - offset
    · have header : TcpHeader.ofBytes (bytes.drop offset) = .ok ⟨_, List.length_drop ▸ complete⟩ :=
        dif_pos _
      rw [if_pos complete, header]
      exact ⟨_, rfl⟩
    · rw [if_neg complete]
      exact ⟨_, rfl⟩
  · exact ⟨_, rfl⟩

theorem Whole.ofBytes_eq (h : Whole packet) :
    ∃ p, Packet.ofBytes packet = .ok p ∧ p.bytes = packet := by
  have complete := h.complete
  have long : ¬packet.length < 4 := by
    have : ipv4MinHeader = 20 := rfl
    omega
  have total : (word16At packet 2).toNat = packet.length := by
    have declared := h.declared
    rw [declaredLength?, if_neg long] at declared
    exact Option.some.inj declared
  have header : Ipv4Header.ofBytes packet = .ok ⟨packet, complete⟩ := dif_pos complete
  unfold Packet.ofBytes
  rw [if_neg (by omega), header]
  change ∃ p, (require ((word16At packet 2).toNat = packet.length) .assertion >>= _) = _ ∧ _
  rw [require_eq_ok.2 total]
  dsimp only [bind, Except.bind]
  split
  · obtain ⟨found, hf⟩ := exists_transportAt packet (Ipv4Header.protocol ⟨packet, complete⟩)
      (Ipv4Header.headerLength ⟨packet, complete⟩)
    rw [hf]
    exact ⟨_, rfl, rfl⟩
  · exact ⟨_, rfl, rfl⟩

/-- The bytes start with these packets, and no whole packet follows. -/
inductive Splits : Bytes → List Bytes → Bytes → Prop where
  | rest {bytes : Bytes} (h : ∀ n, Prospect.of bytes ≠ .packet n) : Splits bytes [] bytes
  | packet {packet bytes rest : Bytes} {packets : List Bytes} (whole : Whole packet)
      (h : Splits bytes packets rest) : Splits (packet ++ bytes) (packet :: packets) rest

namespace Splits

theorem bytes_eq (h : Splits bytes packets rest) : bytes = packets.flatten ++ rest := by
  induction h with
  | rest _ => rfl
  | packet _ _ ih => rw [List.flatten_cons, List.append_assoc, ← ih]

theorem whole (h : Splits bytes packets rest) : ∀ packet ∈ packets, Whole packet := by
  induction h with
  | rest _ => exact List.forall_mem_nil _
  | packet whole _ ih => exact List.forall_mem_cons.2 ⟨whole, ih⟩

theorem unfinished (h : Splits bytes packets rest) : ∀ n, Prospect.of rest ≠ .packet n := by
  induction h with
  | rest none => exact none
  | packet _ _ ih => exact ih

/-- There is only one way to split a byte string. -/
theorem unique (h : Splits bytes packets rest) (h' : Splits bytes packets' rest') :
    packets = packets' ∧ rest = rest' := by
  induction h generalizing packets' rest' with
  | rest none =>
    cases h' with
    | rest _ => exact ⟨rfl, rfl⟩
    | packet whole _ => exact absurd (whole.of_append _) (none _)
  | @packet packet bytes packets rest whole h ih =>
    generalize same : packet ++ bytes = all at h'
    cases h' with
    | rest none =>
      subst same
      exact absurd (whole.of_append _) (none _)
    | @packet packet' bytes' packets' _ whole' h' =>
      -- Both first packets are as long as the bytes declare.
      have seen := whole.of_append bytes
      rw [same, whole'.of_append bytes'] at seen
      have lengths : packet.length = packet'.length := (Prospect.packet.inj seen).symm
      obtain ⟨rfl, rfl⟩ := List.append_inj same lengths
      obtain ⟨rfl, rfl⟩ := ih h'
      exact ⟨rfl, rfl⟩

theorem exists_splits (bytes : Bytes) : ∃ packets rest, Splits bytes packets rest := by
  induction hn : bytes.length using Nat.strongRecOn generalizing bytes with
  | ind n ih =>
    by_cases found : ∃ n, Prospect.of bytes = .packet n
    · obtain ⟨m, seen⟩ := found
      obtain ⟨whole, fits⟩ := whole_of_prospect seen
      have positive : 0 < m := by
        have := whole.complete
        have : ipv4MinHeader = 20 := rfl
        rw [List.length_take_of_le fits] at *
        omega
      obtain ⟨packets, rest, split⟩ := ih (bytes.drop m).length (by simp; omega) _ rfl
      have first := Splits.packet whole split
      rw [List.take_append_drop] at first
      exact ⟨_, _, first⟩
    · exact ⟨[], bytes, .rest fun n seen => found ⟨n, seen⟩⟩

/-- More bytes go on where the rest begins. -/
theorem append (h : Splits bytes packets rest) (h' : Splits (rest ++ more) packets' rest') :
    Splits (bytes ++ more) (packets ++ packets') rest' := by
  induction h with
  | rest _ => exact h'
  | packet whole _ ih =>
    rw [List.append_assoc]
    exact .packet whole (ih h')

theorem of_flatten (whole : ∀ packet ∈ packets, Whole packet)
    (none : ∀ n, Prospect.of rest ≠ .packet n) : Splits (packets.flatten ++ rest) packets rest := by
  induction packets with
  | nil => exact .rest none
  | cons packet packets ih =>
    obtain ⟨first, others⟩ := List.forall_mem_cons.1 whole
    rw [List.flatten_cons, List.append_assoc]
    exact .packet first (ih others)

end Splits

/-- The bytes are the beginning of a packet, but not all of it. -/
def Partial (bytes : Bytes) : Prop := ∃ more, more ≠ [] ∧ Whole (bytes ++ more)

private theorem partial_of_declared (long : 4 ≤ bytes.length)
    (complete : ipv4MinHeader ≤ (word16At bytes 2).toNat)
    (short : bytes.length < (word16At bytes 2).toNat) : Partial bytes := by
  have length : (bytes ++ List.replicate ((word16At bytes 2).toNat - bytes.length) 0).length =
      (word16At bytes 2).toNat := by
    rw [List.length_append, List.length_replicate]
    omega
  -- Any bytes complete the packet once its length is known; zeros will do.
  refine ⟨List.replicate ((word16At bytes 2).toNat - bytes.length) 0, ?_, ?_, ?_⟩
  · intro none
    rw [none, List.append_nil] at length
    omega
  · rw [declaredLength?_append long, length, declaredLength?, if_neg (by omega)]
    rfl
  · rw [length]
    exact complete

/-- What is neither a packet nor corrupt becomes a packet by some more bytes. -/
theorem partial_of_prospect (packet : ∀ n, Prospect.of bytes ≠ .packet n)
    (corrupt : ∀ n, Prospect.of bytes ≠ .corrupt n) : Partial bytes := by
  have header : ipv4MinHeader = 20 := rfl
  by_cases long : 4 ≤ bytes.length
  · have declared : declaredLength? bytes = some (word16At bytes 2) := if_neg (by omega)
    unfold Prospect.of at packet corrupt
    rw [declared] at packet corrupt
    dsimp only at packet corrupt
    by_cases small : (word16At bytes 2).toNat < ipv4MinHeader
    · rw [if_pos small] at corrupt
      exact absurd rfl (corrupt _)
    by_cases short : bytes.length < (word16At bytes 2).toNat
    · exact partial_of_declared long (by omega) short
    · rw [if_neg small, if_neg short] at packet
      exact absurd rfl (packet _)
  · -- The length field goes on so that its last byte alone is more than a header takes.
    let field : Bytes := ([0, 0, 0, 255] : Bytes).drop bytes.length
    have length : (bytes ++ field).length = 4 := by
      simp [field]
      omega
    have last : (bytes ++ field).getD 3 0 = 255 := by
      rw [List.getD_eq_getElem?_getD, List.getElem?_append_right (by omega), List.getElem?_drop,
        Nat.add_sub_cancel' (by omega)]
      rfl
    have large : 255 ≤ (word16At (bytes ++ field) 2).toNat := by
      rw [word16At, toNat_word16, last]
      exact Nat.le_add_left _ _
    obtain ⟨more, -, whole⟩ := partial_of_declared
      (show 4 ≤ (bytes ++ field).length by omega) (by omega) (by omega)
    refine ⟨field ++ more, ?_, by rwa [← List.append_assoc]⟩
    intro none
    rw [(List.append_eq_nil_iff.1 none).1, List.append_nil] at length
    omega

namespace Framing

variable {f : Framing}

/-- The held bytes lie in the row, which is as long as the longest packet. -/
structure Sound (f : Framing) : Prop where
  size_eq : f.cells.size = maxPacketLength
  start_le : f.start ≤ f.stop
  stop_le : f.stop ≤ maxPacketLength

/-- No whole packet is held, and more bytes can make one. -/
structure Drained (f : Framing) : Prop where
  unfinished : ∀ n, Prospect.of f.held ≠ .packet n
  sane : ∀ n, Prospect.of f.held ≠ .corrupt n

theorem Drained.partial (h : Drained f) : Partial f.held := partial_of_prospect h.unfinished h.sane

theorem sound_empty : Sound {} := ⟨rfl, Nat.le_refl _, Nat.zero_le _⟩

@[simp]
theorem held_empty : held {} = [] := rfl

theorem drained_empty : Drained {} := by
  constructor <;> simp [Prospect.of, declaredLength?]

@[simp]
theorem length_held (f : Framing) : f.held.length = f.length := by simp [held]

theorem Sound.length_le (h : Sound f) : f.held.length ≤ maxPacketLength := by
  rw [length_held, length]
  exact Nat.le_trans (Nat.sub_le _ _) h.stop_le

theorem Sound.read_eq (h : Sound f) (hn : n ≤ f.held.length) :
    f.cells.read f.start (f.start + n) = .ok (f.held.take n) := by
  have start := h.start_le
  have stop := h.stop_le
  rw [length_held, length] at hn
  have inRow : f.start ≤ f.start + n ∧ f.start + n ≤ f.cells.size := by
    rw [h.size_eq]
    omega
  have part : List.range' f.start n = (List.range' f.start (f.stop - f.start)).take n := by
    have all := List.range'_append_1 (s := f.start) (m := n) (n := f.stop - f.start - n)
    rw [Nat.add_sub_cancel' hn] at all
    rw [← all, List.take_left' List.length_range']
  rw [Cells.read, if_pos inRow, held, ← List.map_take, Nat.add_sub_cancel_left, length, part]

theorem Sound.read_held (h : Sound f) : f.cells.read f.start f.stop = .ok f.held := by
  have all := h.read_eq (Nat.le_refl _)
  rwa [List.take_length, length_held, length, Nat.add_sub_cancel' h.start_le] at all

private theorem held_fill {cells : Cells} {start : Nat} (fits : start + bytes.length ≤ cells.size) :
    (List.range' start bytes.length).map (cells.fill start bytes).get = bytes := by
  apply List.ext_getElem
  · simp
  · intro i hi hi'
    have inside : start ≤ start + i ∧ start + i < start + bytes.length := by omega
    simp [Cells.get_fill fits, hi']

private theorem compact_spec (h : Sound f) : Sound f.compact ∧ f.compact.start = 0 ∧
    f.compact.stop = f.length ∧ f.compact.held = f.held := by
  have stop := h.stop_le
  unfold compact
  split
  · next front =>
    refine ⟨h, front, ?_, rfl⟩
    rw [length, front, Nat.sub_zero]
  · have shorter : f.length ≤ maxPacketLength := Nat.le_trans (Nat.sub_le _ _) stop
    refine ⟨⟨by simp [h.size_eq], Nat.zero_le _, shorter⟩, rfl, rfl, ?_⟩
    have fits : 0 + f.held.length ≤ f.cells.size := by
      rw [Nat.zero_add, h.size_eq]
      exact h.length_le
    have same := held_fill fits
    rwa [length_held] at same

theorem Sound.room_eq (h : Sound f) (short : f.held.length < maxPacketLength) :
    f.room = .ok (maxPacketLength - f.held.length) := by
  obtain ⟨sound, -, stop, -⟩ := compact_spec h
  rw [length_held] at short ⊢
  simp only [room, bind, Except.bind, sound.size_eq, stop, require_eq_ok.2 short]
  rfl

theorem Sound.of_room (h : Sound f) (hr : f.room = .ok n) :
    f.held.length + n = maxPacketLength ∧ 0 < n := by
  obtain ⟨sound, -, stop, -⟩ := compact_spec h
  simp only [room, checked_bind_eq_ok, checked_pure_eq_ok, sound.size_eq, stop] at hr
  obtain ⟨⟨⟩, required, rfl⟩ := hr
  have short := require_eq_ok.1 required
  rw [length_held]
  omega

theorem Sound.append (h : Sound f) (fits : f.held.length + bytes.length ≤ maxPacketLength) :
    Sound (f.append bytes) ∧ (f.append bytes).held = f.held ++ bytes := by
  obtain ⟨sound, start, stop, same⟩ := compact_spec h
  rw [length_held] at fits
  have inRow : f.compact.stop + bytes.length ≤ f.compact.cells.size := by
    rwa [sound.size_eq, stop]
  refine ⟨⟨by simp [Framing.append, sound.size_eq], ?_, ?_⟩, ?_⟩
  · change f.compact.start ≤ _
    rw [start]
    exact Nat.zero_le _
  · change f.compact.stop + bytes.length ≤ _
    rwa [stop]
  · rw [← same]
    change (List.range' f.compact.start (f.compact.stop + bytes.length - f.compact.start)).map _ =
      (List.range' f.compact.start (f.compact.stop - f.compact.start)).map _ ++ bytes
    rw [start, Nat.sub_zero, Nat.sub_zero, ← List.range'_append_1, List.map_append, Nat.zero_add]
    -- The cells in front of `stop` are not written, and those behind it hold the new bytes.
    have behind := held_fill inRow
    congr 1
    apply List.map_congr_left
    intro i hi
    have before : i < f.compact.stop := by simpa using (List.mem_range'_1.1 hi).2
    change (f.compact.cells.fill f.compact.stop bytes).get i = _
    rw [Cells.get_fill inRow, if_neg (by omega)]

def drop (f : Framing) (n : Nat) : Framing :=
  let f := { f with start := f.start + n }
  if f.start = f.stop then { f with start := 0, stop := 0 } else f

theorem Sound.drop (h : Sound f) (hn : n ≤ f.held.length) :
    Sound (f.drop n) ∧ (f.drop n).held = f.held.drop n := by
  have start := h.start_le
  rw [length_held, length] at hn
  unfold Framing.drop
  dsimp only
  split
  · next empty =>
    refine ⟨⟨h.size_eq, Nat.le_refl _, Nat.zero_le _⟩, ?_⟩
    have all : f.held.length ≤ n := by
      rw [length_held, length]
      omega
    exact (List.drop_eq_nil_of_le all).symm
  · refine ⟨⟨h.size_eq, ?_, h.stop_le⟩, ?_⟩
    · change f.start + n ≤ f.stop
      omega
    · simp only [held, length, ← List.map_drop, List.drop_range']
      rw [Nat.mul_one, Nat.sub_add_eq]

section

variable {σ : Type} {s : Scene Framing σ}

theorem prospect_eq (h : Sound f) : f.prospect = .ok (.of f.held) := by
  rw [prospect, h.read_held]
  rfl

theorem look_eq (h : Sound s.self) : ∃ host, s.host.After [] host ∧
    ((∀ n, Prospect.of s.self.held ≠ .incomplete n) → host = s.host) ∧
    look s = .ok (.of s.self.held, { s with host }) := by
  have seen := prospect_eq h
  cases hp : Prospect.of s.self.held with
  | incomplete declared =>
    refine ⟨_, (Host.After.refl _).note (.incompletePacket s.self.length declared),
      fun none => absurd rfl (none declared), ?_⟩
    simp only [look, bind_apply, self_apply, liftM_apply, seen, hp, ok_bind]
    rfl
  | unknown | packet | corrupt =>
    refine ⟨s.host, .refl _, fun _ => rfl, ?_⟩
    simp only [look, bind_apply, self_apply, liftM_apply, seen, hp, ok_bind]
    rfl

theorem next_eq_packet (h : Sound s.self) (seen : Prospect.of s.self.held = .packet n) :
    ∃ p, Packet.ofBytes (s.self.held.take n) = .ok p ∧ p.bytes = s.self.held.take n ∧
      next s = .ok (.ok (some p), s) := by
  obtain ⟨host, -, same, looked⟩ := look_eq h
  rw [seen] at same looked
  rw [same nofun] at looked
  obtain ⟨whole, fits⟩ := whole_of_prospect seen
  obtain ⟨p, parsed, bytes⟩ := whole.ofBytes_eq
  refine ⟨p, parsed, bytes, ?_⟩
  simp only [next, bind_apply, looked, self_apply, liftM_apply, h.read_eq fits, parsed, ok_bind]
  rfl

/-- Where no whole packet is held, the answer is that more is needed or that the stream is lost. -/
theorem next_eq_none (h : Sound s.self) (short : ∀ n, Prospect.of s.self.held ≠ .packet n) :
    ∃ host, s.host.After [] host ∧ next s = .ok (match Prospect.of s.self.held with
      | .corrupt n => .error (.corruptStream n)
      | _ => .ok none, { s with host }) := by
  obtain ⟨host, called, -, looked⟩ := look_eq h
  refine ⟨host, called, ?_⟩
  simp only [next, bind_apply, looked, ok_bind]
  cases hp : Prospect.of s.self.held with
  | packet n => exact absurd hp (short n)
  | unknown | incomplete | corrupt => rfl

theorem consume_eq (h : Sound s.self) (seen : Prospect.of s.self.held = .packet n) :
    consume s = .ok ((), { s with self := s.self.drop n }) := by
  obtain ⟨host, -, same, looked⟩ := look_eq h
  rw [seen] at same looked
  rw [same nofun] at looked
  simp only [consume, bind_apply, looked, ok_bind]
  rfl

end

end Framing

end TunnelRelay
