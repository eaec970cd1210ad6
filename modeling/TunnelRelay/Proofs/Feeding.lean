import TunnelRelay.Proofs.Framing

/-!
# Feeding a buffer

A buffer from which all whole packets are taken before more is read yields the packets of the stream
that it is fed with, however that stream is cut into chunks.
-/

namespace TunnelRelay

open Act

variable {packet bytes more rest : Bytes} {packets chunks : List Bytes}

theorem Partial.prospect (h : Partial bytes) : (∀ n, Prospect.of bytes ≠ .packet n) ∧
    ∀ n, Prospect.of bytes ≠ .corrupt n := by
  obtain ⟨more, some, whole⟩ := h
  have seen := whole.of_append []
  rw [List.append_nil] at seen
  have shorter : 0 < more.length := List.length_pos_iff.2 some
  constructor
  · intro n packet
    have fits := (Prospect.of_eq_packet_iff.1 packet).2.2
    rw [Prospect.of_append (.inl ⟨n, packet⟩), packet] at seen
    have same := Prospect.packet.inj seen
    rw [List.length_append] at same
    omega
  · intro n corrupt
    rw [Prospect.of_append (.inr ⟨n, corrupt⟩), corrupt] at seen
    cases seen

theorem Partial.length_lt (h : Partial bytes) : bytes.length < maxPacketLength := by
  obtain ⟨more, some, whole⟩ := h
  have shorter : 0 < more.length := List.length_pos_iff.2 some
  obtain ⟨declared, -, same⟩ := Option.map_eq_some_iff.1 whole.declared
  have small := declared.toNat_lt
  rw [List.length_append] at same
  have limit : maxPacketLength = 65535 := rfl
  omega

theorem partial_nil : Partial [] := by
  obtain ⟨packet, whole, some⟩ : ∃ packet, Whole packet ∧ packet ≠ [] :=
    ⟨[0, 0, 0, 20] ++ List.replicate 16 0, ⟨by decide, by decide⟩, by decide⟩
  exact ⟨packet, some, whole⟩

/-- The first bytes of whole packets are some of these packets and a beginning of the next one. -/
theorem Splits.exists_of_flatten (whole : ∀ packet ∈ packets, Whole packet)
    (h : bytes ++ more = packets.flatten) :
    ∃ k rest, Splits bytes (packets.take k) rest ∧ Partial rest ∧ (k = packets.length ∧ rest = [] ∨
      ∃ packet, packets[k]? = some packet ∧ rest <+: packet ∧ rest ≠ packet) := by
  induction packets generalizing bytes with
  | nil =>
    obtain ⟨rfl, -⟩ := List.append_eq_nil_iff.1 h
    exact ⟨0, [], .rest nofun, partial_nil, .inl ⟨rfl, rfl⟩⟩
  | cons packet packets ih =>
    obtain ⟨first, others⟩ := List.forall_mem_cons.1 whole
    rw [List.flatten_cons] at h
    have start : bytes <+: packet ++ packets.flatten := ⟨more, h⟩
    have start' : packet <+: packet ++ packets.flatten := List.prefix_append _ _
    -- Either the cut is behind the first packet or it is inside of it.
    by_cases all : packet.length ≤ bytes.length
    · obtain ⟨later, rfl⟩ := List.prefix_of_prefix_length_le start' start all
      rw [List.append_assoc] at h
      obtain ⟨k, rest, splits, unfinished, next⟩ := ih others (List.append_cancel_left h)
      refine ⟨k + 1, rest, .packet first splits, unfinished, next.imp_left ?_⟩
      rintro ⟨rfl, rest⟩
      exact ⟨rfl, rest⟩
    · have front := List.prefix_of_prefix_length_le start start' (Nat.le_of_not_le all)
      have short : bytes ≠ packet := fun same => all (Nat.le_of_eq (congrArg _ same.symm))
      obtain ⟨missing, rfl⟩ := front
      have some : missing ≠ [] := fun none => short (by rw [none, List.append_nil])
      have unfinished : Partial bytes := ⟨missing, some, first⟩
      refine ⟨0, bytes, .rest unfinished.prospect.1, unfinished, .inr ⟨_, rfl, ?_, short⟩⟩
      exact List.prefix_append _ _

namespace Framing

variable {σ : Type} {s t : Scene Framing σ}

/-- A buffer is fed with chunks of a stream. All whole packets are taken out before the next chunk is
read, which is no longer than there is room. -/
inductive Feeds : Scene Framing σ → List Bytes → List Bytes → Scene Framing σ → Prop where
  | rest {s t : Scene Framing σ} (found : next s = .ok (.ok none, t)) : Feeds s [] [] t
  | packet {s t u v : Scene Framing σ} {p : Packet} {chunks packets : List Bytes}
      (found : next s = .ok (.ok (some p), t)) (taken : consume t = .ok ((), u))
      (h : Feeds u chunks packets v) : Feeds s chunks (p.bytes :: packets) v
  | chunk {s t u : Scene Framing σ} {chunk : Bytes} {chunks packets : List Bytes} {room : Nat}
      (found : next s = .ok (.ok none, t)) (free : t.self.room = .ok room)
      (fits : chunk.length ≤ room)
      (h : Feeds { t with self := t.self.append chunk } chunks packets u) :
      Feeds s (chunk :: chunks) packets u

private theorem next_inv (sound : s.self.Sound) {found : Option Packet}
    (h : next s = .ok (.ok found, t)) : t.self = s.self ∧
      match found with
      | none => s.self.Drained
      | some p => Prospect.of s.self.held = .packet p.length ∧ p.bytes = s.self.held.take p.length := by
  by_cases whole : ∃ n, Prospect.of s.self.held = .packet n
  · obtain ⟨n, seen⟩ := whole
    obtain ⟨p, -, bytes, taken⟩ := next_eq_packet sound seen
    rw [taken] at h
    cases h
    have length : p.length = n := by
      rw [Packet.length, bytes, List.length_take_of_le (whole_of_prospect seen).2]
    exact ⟨rfl, by rw [length, seen], by rw [length, bytes]⟩
  · have unfinished : ∀ n, Prospect.of s.self.held ≠ .packet n := fun n seen => whole ⟨n, seen⟩
    obtain ⟨host, -, none⟩ := next_eq_none sound unfinished
    rw [none] at h
    cases seen : Prospect.of s.self.held with
    | corrupt n =>
      rw [seen] at h
      cases h
    | packet n => exact absurd seen (unfinished n)
    | unknown | incomplete =>
      rw [seen] at h
      cases h
      exact ⟨rfl, unfinished, by simp [seen]⟩

private theorem append_of_room (sound : s.self.Sound) {room : Nat} (free : s.self.room = .ok room)
    {chunk : Bytes} (fits : chunk.length ≤ room) :
    (s.self.append chunk).Sound ∧ (s.self.append chunk).held = s.self.held ++ chunk := by
  obtain ⟨total, -⟩ := sound.of_room free
  exact sound.append (by omega)

/-- Whatever comes out are the packets that the stream begins with, and the rest is held. -/
theorem Feeds.splits (sound : s.self.Sound) (h : Feeds s chunks packets t) :
    Splits (s.self.held ++ chunks.flatten) packets t.self.held := by
  induction h with
  | rest found =>
    obtain ⟨same, drained⟩ := next_inv sound found
    rw [same, List.flatten_nil, List.append_nil]
    exact .rest drained.unfinished
  | @packet s t u v p chunks packets found taken _ ih =>
    obtain ⟨same, seen, bytes⟩ := next_inv sound found
    have consumed : consume t = _ := consume_eq (same ▸ sound) (same ▸ seen)
    rw [taken] at consumed
    cases consumed
    have whole := whole_of_prospect seen
    obtain ⟨sound', held'⟩ := sound.drop whole.2
    have later := ih (same ▸ sound')
    rw [same, held'] at later
    have first := Splits.packet whole.1 later
    rwa [← List.append_assoc, List.take_append_drop, ← bytes] at first
  | @chunk s t u chunk chunks packets room found free fits _ ih =>
    obtain ⟨same, drained⟩ := next_inv sound found
    obtain ⟨sound', held'⟩ := append_of_room (same ▸ sound : t.self.Sound) free fits
    have later := ih sound'
    rwa [held', same, List.append_assoc, ← List.flatten_cons] at later

/-- Each chunk fits behind what is held when it is read. -/
def Fits (held : Bytes) (chunks : List Bytes) : Prop :=
  ∀ before chunk, before ++ [chunk] <+: chunks → ∀ packets rest,
    Splits (held ++ before.flatten) packets rest → rest.length + chunk.length ≤ maxPacketLength

private theorem Fits.tail {held chunk : Bytes} (h : Fits held (chunk :: chunks)) :
    Fits (held ++ chunk) chunks := by
  intro before chunk' first packets rest splits
  refine h (chunk :: before) chunk' (List.cons_prefix_cons.2 ⟨rfl, first⟩) packets rest ?_
  rwa [List.flatten_cons, ← List.append_assoc]

private theorem Fits.behind {held : Bytes} (h : Fits held chunks) (splits : Splits held packets rest) :
    Fits rest chunks := by
  intro before chunk first more rest' splits'
  exact h before chunk first _ rest' (splits.append splits')

private theorem exists_feeds_of_drained (sound : s.self.Sound) {held : List Bytes}
    (splits : Splits s.self.held held rest)
    (goesOn : ∀ t : Scene Framing σ, t.self.Sound → t.self.held = rest →
      ∃ u, Feeds t chunks packets u) :
    ∃ u, Feeds s chunks (held ++ packets) u := by
  generalize same : s.self.held = bytes at splits
  induction splits generalizing s with
  | rest _ => exact goesOn s sound same
  | @packet packet bytes rest held whole _ ih =>
    have seen : Prospect.of s.self.held = .packet packet.length := same ▸ whole.of_append bytes
    obtain ⟨p, -, taken, found⟩ := next_eq_packet sound seen
    obtain ⟨sound', held'⟩ := sound.drop (whole_of_prospect seen).2
    rw [same, List.drop_left] at held'
    rw [same, List.take_left] at taken
    obtain ⟨u, feeds⟩ := ih (s := { s with self := _ }) sound' goesOn held'
    exact ⟨u, taken ▸ .packet found (consume_eq sound seen) feeds⟩

private theorem next_of_drained (sound : s.self.Sound) (drained : s.self.Drained) :
    ∃ host, next s = .ok (.ok none, { s with host }) := by
  obtain ⟨host, -, none⟩ := next_eq_none sound drained.unfinished
  refine ⟨host, ?_⟩
  rw [none]
  cases seen : Prospect.of s.self.held with
  | corrupt n => exact absurd seen (drained.sane n)
  | unknown | incomplete | packet => rfl

/-- A stream that is not corrupt can be read to its end in chunks that fit. -/
theorem exists_feeds (sound : s.self.Sound)
    (splits : Splits (s.self.held ++ chunks.flatten) packets rest)
    (sane : ∀ n, Prospect.of rest ≠ .corrupt n) (fits : Fits s.self.held chunks) :
    ∃ t, Feeds s chunks packets t := by
  induction chunks generalizing s packets with
  | nil =>
    rw [List.flatten_nil, List.append_nil] at splits
    have feeds : ∃ t, Feeds s [] (packets ++ []) t := by
      apply exists_feeds_of_drained sound splits
      intro t sound' held
      obtain ⟨host, found⟩ := next_of_drained sound' ⟨held ▸ splits.unfinished, held ▸ sane⟩
      exact ⟨_, .rest found⟩
    rwa [List.append_nil] at feeds
  | cons chunk chunks ih =>
    -- What is held before the chunk is read is drained first.
    obtain ⟨first, held, start⟩ := Splits.exists_splits s.self.held
    obtain ⟨later, rest', goesOn⟩ := Splits.exists_splits (held ++ (chunk :: chunks).flatten)
    obtain ⟨rfl, rfl⟩ := splits.unique (start.append goesOn)
    -- A rest that is corrupt stays corrupt, whatever is read behind it.
    have sane' : ∀ n, Prospect.of held ≠ .corrupt n := by
      intro n corrupt
      have stays : Prospect.of (held ++ (chunk :: chunks).flatten) = .corrupt n := by
        rw [Prospect.of_append (.inr ⟨n, corrupt⟩), corrupt]
      have unfinished : ∀ m, Prospect.of (held ++ (chunk :: chunks).flatten) ≠ .packet m := by
        rw [stays]
        exact nofun
      obtain ⟨-, rfl⟩ := goesOn.unique (.rest unfinished)
      exact sane n stays
    apply exists_feeds_of_drained sound start
    intro t sound' same
    have drained : t.self.Drained := ⟨same ▸ start.unfinished, same ▸ sane'⟩
    obtain ⟨host, found⟩ := next_of_drained sound' drained
    have enough : held.length + chunk.length ≤ maxPacketLength :=
      fits.behind start [] chunk (List.prefix_append _ _) [] held
        (by simpa using Splits.rest start.unfinished)
    have free := sound'.room_eq drained.partial.length_lt
    have short : chunk.length ≤ maxPacketLength - t.self.held.length := by
      rw [same]
      omega
    obtain ⟨sound'', held'⟩ := append_of_room sound' free short
    rw [same] at held'
    obtain ⟨u, feeds⟩ := ih (s := ⟨t.self.append chunk, t.registry, t.out, host⟩) sound''
      (by rwa [held', List.append_assoc]) (held' ▸ (fits.behind start).tail)
    exact ⟨u, .chunk found free short feeds⟩

/-- A fresh buffer that is fed with some packets and the beginning of another one, in any chunks that
fit, gives out these packets and holds the rest. -/
theorem feeds_of_empty (empty : s.self = {}) (whole : ∀ packet ∈ packets, Whole packet)
    (unfinished : Partial rest) (all : chunks.flatten = packets.flatten ++ rest)
    (fits : Fits [] chunks) : (∃ t, Feeds s chunks packets t) ∧
      ∀ found t, Feeds s chunks found t → found = packets ∧ t.self.held = rest := by
  have sound : s.self.Sound := empty ▸ sound_empty
  have held : s.self.held = [] := by rw [empty, held_empty]
  have splits : Splits (s.self.held ++ chunks.flatten) packets rest := by
    rw [held, List.nil_append, all]
    exact .of_flatten whole unfinished.prospect.1
  refine ⟨exists_feeds sound splits unfinished.prospect.2 (held ▸ fits), ?_⟩
  exact fun found t feeds => (feeds.splits sound).unique splits

end Framing

end TunnelRelay
