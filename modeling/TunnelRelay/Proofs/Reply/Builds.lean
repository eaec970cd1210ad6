import TunnelRelay.Proofs.Reply.Operations

/-!
# Ways to build a packet

A packet is built from a payload at hand, in room that a source fills, or without a payload. For the same
payload it is the same packet, whatever the slabs held before, and a packet with payload stays what it is
while others are built without.
-/

namespace TunnelRelay.Reply

inductive Build where
  | whole (payload : Bytes)
  /-- In at most `limit` bytes of room. A source writes `bytes` there, of which the first `n` count. -/
  | filled (limit : Nat) (bytes : Bytes) (n : Nat)
  | empty

def Build.run (r : Reply) : Build → Checked (Packet × Reply)
  | whole payload => r.withPayload payload
  | filled limit bytes n => do
    let (_, r) ← r.reserve limit
    let r ← r.commit bytes n
    r.completeData
  | empty => r.withoutPayload

def Build.payload : Build → Bytes
  | whole payload => payload
  | filled _ bytes n => bytes.take n
  | empty => []

/-- The payload fits a packet, and a source stays within the room that it is offered. -/
def Build.Admissible (r : Reply) : Build → Prop
  | whole payload => payload.length ≤ r.maxPayload
  | filled limit bytes n => n ≤ bytes.length ∧ bytes.length ≤ min limit r.maxPayload
  | empty => True

variable {r r' : Reply} {packet : Packet} {payload : Bytes} {build : Build} {operation : Operation}
  {operations : List Operation}

theorem Build.Admissible.length_le (h : build.Admissible r) : build.payload.length ≤ r.maxPayload := by
  cases build with
  | whole payload => exact h
  | filled limit bytes n =>
    have within : (bytes.take n).length ≤ bytes.length := List.length_take_le' n bytes
    exact Nat.le_trans within (Nat.le_trans h.2 (Nat.min_le_right _ _))
  | empty => exact Nat.zero_le _

private theorem withPayload_eq (h : r.Equipped) (fits : payload.length ≤ r.maxPayload)
    (composed : r.compose payload = .ok packet) : ∃ after, r.withPayload payload = .ok (packet, after) := by
  have short := h.length_le fits
  obtain ⟨started, put, filled, capacity⟩ := put_isOk (h.data_capacity ▸ h.headers_le)
  have room : payload.length ≤ started.remaining := by
    have length : started.length = r.headers.length := congrArg List.length filled
    have same := capacity.trans h.data_capacity
    unfold Slab.capacity at same
    omega
  obtain ⟨full, put'⟩ : ∃ full, started.put payload = .ok full := ⟨_, if_pos room⟩
  have full_eq : full.filled = r.headers ++ payload := by rw [(Slab.filled_of_put put').1, filled]
  rw [withPayload, require_eq_ok.2 fits, ok_bind, put, ok_bind, put', ok_bind, complete_eq h.plain full_eq,
    composed]
  exact ⟨_, rfl⟩

private theorem filled_eq (h : r.Equipped) {limit n : Nat} {bytes : Bytes} (within : n ≤ bytes.length)
    (fits : bytes.length ≤ min limit r.maxPayload) (composed : r.compose (bytes.take n) = .ok packet) :
    ∃ after, (Build.filled limit bytes n).run r = .ok (packet, after) := by
  have short := h.length_le (Nat.le_trans fits (Nat.min_le_right _ _))
  obtain ⟨data, reserved, equipped, filled⟩ := h.reserve_isOk limit
  have capacity : data.capacity = maxPacketLength := equipped.data_capacity
  have room : bytes.length ≤ data.remaining := by
    have length : data.length = r.headers.length := congrArg List.length filled
    unfold Slab.capacity at capacity
    omega
  obtain ⟨laid, full, lay, advance, full_eq, -⟩ := lay_advance_isOk room (Nat.le_of_eq capacity) within
  have committed : commit { r with data } bytes n = .ok { r with data := full } := by
    rw [commit, lay, ok_bind, advance]
    rfl
  have completed : complete { r with data := full } full = r.complete full := rfl
  rw [filled] at full_eq
  rw [Build.run, reserved, ok_bind]
  dsimp only
  rw [committed, ok_bind, completeData, completed, complete_eq h.plain full_eq, composed]
  exact ⟨_, rfl⟩

private theorem withoutPayload_eq (h : r.Equipped) (composed : r.compose [] = .ok packet) :
    ∃ after, r.withoutPayload = .ok (packet, after) := by
  obtain ⟨started, put, filled, -⟩ := put_isOk (Nat.le_of_eq h.control_capacity.symm)
  have full_eq : started.filled = r.headers ++ [] := by rw [filled, List.append_nil]
  rw [withoutPayload, put, ok_bind, complete_eq h.plain full_eq, composed]
  exact ⟨_, rfl⟩

/-- Every way to build a packet composes headers and payload. -/
theorem Equipped.run_eq (h : r.Equipped) (admissible : build.Admissible r)
    (composed : r.compose build.payload = .ok packet) : ∃ after, build.run r = .ok (packet, after) := by
  cases build with
  | whole payload => exact withPayload_eq h admissible composed
  | filled limit bytes n => exact filled_eq h admissible.1 admissible.2 composed
  | empty => exact withoutPayload_eq h composed

theorem Equipped.compose_isOk (h : r.Equipped) (fits : payload.length ≤ r.maxPayload) :
    ∃ packet, r.compose payload = .ok packet := Reply.compose_isOk h.plain (h.length_le fits)

/-- What is done between two data packets: edits, and packets without payload. -/
def Operation.Aside : Operation → Prop
  | set _ => True
  | edit e => e.InRange
  | withoutPayload => True
  | _ => False

private theorem Equipped.perform_aside (h : r.Equipped) (aside : operation.Aside) :
    ∃ r', operation.perform r = .ok r' ∧ r'.Equipped ∧ r'.data = r.data := by
  cases operation with
  | set e =>
    have same : (r.editTcp e.apply).data = r.data := by
      unfold Reply.editTcp
      split <;> rfl
    exact ⟨_, rfl, h.set e, same⟩
  | edit e =>
    obtain ⟨t, applied⟩ := TransportEdit.apply_isOk h.plain aside
    refine ⟨{ r with transport := t }, ?_, h.edit applied, rfl⟩
    rw [Operation.perform, editTransport, applied]
    rfl
  | withoutPayload =>
    obtain ⟨packet, control, done, -, equipped⟩ := h.withoutPayload_isOk
    refine ⟨{ r with control }, ?_, equipped, rfl⟩
    rw [Operation.perform, done]
    rfl
  | reserve limit => exact aside.elim
  | commit bytes n => exact aside.elim
  | completeData => exact aside.elim
  | withPayload payload => exact aside.elim

/-- The slab of data packets stays as it is meanwhile. -/
theorem Equipped.performAll_asides (h : r.Equipped) (asides : ∀ operation ∈ operations, operation.Aside) :
    ∃ r', r.performAll operations = .ok r' ∧ r'.data = r.data := by
  induction operations generalizing r with
  | nil => exact ⟨r, rfl, rfl⟩
  | cons operation rest ih =>
    rw [List.forall_mem_cons] at asides
    obtain ⟨middle, first, equipped, same⟩ := h.perform_aside asides.1
    obtain ⟨r', others, same'⟩ := ih equipped asides.2
    exact ⟨r', by rw [performAll_cons, first, ok_bind, others], same'.trans same⟩

/-- All ways to build a packet agree, whatever the slabs hold, and the last data packet can be had again
until the next one is started. -/
theorem builds_agree {bytes : Bytes} {request : Packet} {first : Reply}
    (parsed : Packet.ofBytes bytes = .ok request) (created : ofRequest request = .ok (some first))
    (used : first.performAll operations = .ok r) :
    (∀ (build : Build) (data control : Slab), build.Admissible r →
      data.capacity = r.data.capacity → control.capacity = r.control.capacity →
      ∃ packet after after', r.withPayload build.payload = .ok (packet, after) ∧
        build.run { r with data, control } = .ok (packet, after')) ∧
    ∀ packet after,
      (∃ payload, r.withPayload payload = .ok (packet, after)) ∨ r.completeData = .ok (packet, after) →
      ∀ asides : List Operation, (∀ operation ∈ asides, operation.Aside) →
      ∃ last, after.performAll asides = .ok last ∧ last.latestData = .ok packet := by
  obtain ⟨_, created', equipped⟩ := ofRequest_isOk parsed
  cases created'.symm.trans created
  replace equipped := (equipped first rfl).performAll used
  constructor
  · intro build data control admissible capacity capacity'
    have fits := admissible.length_le
    obtain ⟨packet, composed⟩ := equipped.compose_isOk fits
    have refilled : r.Refills { r with data, control } := ⟨rfl, rfl, capacity, capacity'⟩
    obtain ⟨after, done⟩ := withPayload_eq equipped fits composed
    obtain ⟨after', done'⟩ := (refilled.equipped equipped).run_eq admissible composed
    exact ⟨packet, after, after', done, done'⟩
  · intro packet after built asides all
    have refills : r.Refills after ∧ after.latestData = .ok packet := by
      rcases built with ⟨payload, built⟩ | built
      · exact withPayload_inv built
      · exact completeData_inv built
    obtain ⟨last, performed, same⟩ := (refills.1.equipped equipped).performAll_asides all
    refine ⟨last, performed, ?_⟩
    rw [latestData, same]
    exact refills.2

/-- A source counts two of three bytes, and an acknowledgement is sent before the packet is had again. -/
theorem builds_agree_of_segment :
    ∃ first packet after after' last,
      ofRequest ⟨Packet.segmentWithOptions, some (.tcp, 24)⟩ = .ok (some first) ∧
      first.withPayload [1, 2] = .ok (packet, after) ∧
      (Build.filled 30 [1, 2, 3] 2).run first = .ok (packet, after') ∧
      after.performAll [.set (.sequence 7), .withoutPayload] = .ok last ∧
      last.latestData = .ok packet := by
  have parsed : Packet.ofBytes Packet.segmentWithOptions =
      .ok ⟨Packet.segmentWithOptions, some (.tcp, 24)⟩ := by rfl
  obtain ⟨first, created, room⟩ : ∃ first,
      ofRequest ⟨Packet.segmentWithOptions, some (.tcp, 24)⟩ = .ok (some first) ∧
      first.maxPayload = 65495 := ⟨_, by rfl, by rfl⟩
  have unused : first.performAll [] = .ok first := rfl
  obtain ⟨agree, keep⟩ := builds_agree parsed created unused
  have admissible : (Build.filled 30 [1, 2, 3] 2).Admissible first := by
    simp [Build.Admissible, room]
  obtain ⟨packet, after, after', whole, filled⟩ :=
    agree (.filled 30 [1, 2, 3] 2) first.data first.control admissible rfl rfl
  obtain ⟨last, performed, latest⟩ := keep packet after (.inl ⟨[1, 2], whole⟩)
    [.set (.sequence 7), .withoutPayload] (by simp [Operation.Aside])
  exact ⟨first, packet, after, after', last, created, whole, filled, performed, latest⟩

end TunnelRelay.Reply
