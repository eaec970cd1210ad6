import TunnelRelay.Proofs.Flow.Tcp.Conversation

/-!
# Numbers and what was handed over

A flow numbers what it says by what it has built: the answer to the request, the payload that was
read, and the end of its stream. Payload that is refused waits and is offered again, but the answer
and the end are not. Their numbers are spent all the same.
-/

namespace TunnelRelay

/-- Whether the bytes are read as a segment with this flag. -/
def flagged (flag : TcpFlags) (bytes : Bytes) : Bool :=
  match Segment.ofBytes bytes with
  | .ok (some segment) => segment.flags.has flag
  | _ => false

/-- Whether a packet with this flag was offered and taken. -/
def Event.handsOver (flag : TcpFlags) : Event → Bool
  | .offer bytes taken => taken && flagged flag bytes
  | _ => false

namespace TcpFlow

/-- How many packets with this flag were built. -/
def builds (flag : TcpFlags) (steps : List Step) : Nat :=
  steps.countP fun step => step.mark.built?.any fun sent => flagged flag sent.packet.bytes

/-- How many packets with this flag were taken. -/
def handedOver (flag : TcpFlags) (steps : List Step) : Nat :=
  (calls steps).countP (Event.handsOver flag)

variable {σ : Type} [Outlet σ] {stimulus : Stimulus} {f g : TcpFlow} {r r' : Registry}
  {out out' : σ} {mark : Mark} {journal : List Step} {step : Step} {s : Scene TcpFlow σ}
  {flag : TcpFlags}

theorem builds_append (first second : List Step) :
    builds flag (first ++ second) = builds flag first + builds flag second := List.countP_append

theorem handedOver_append (first second : List Step) :
    handedOver flag (first ++ second) = handedOver flag first + handedOver flag second := by
  simp [handedOver, calls]

theorem builds_speech (journal : List Step) : builds flag (speech journal) = builds flag journal := by
  rw [builds, speech, List.countP_filter]
  refine List.countP_congr fun step _ => ?_
  cases step.mark.built? <;> simp

private theorem Step.Says.builds_eq {flags : TcpFlags} {number acknowledgement : UInt32}
    {window : UInt16} {payload : Bytes}
    (h : step.Says ⟨flags, number, acknowledgement, window, payload⟩) :
    builds flag [step] = if flags.has flag then 1 else 0 := by
  obtain ⟨sent, built, read⟩ := h
  simp [builds, built, flagged, read, List.countP_singleton]

/-- A conversation holds one answer, and one end if it has come to it. -/
theorem Conversation.builds_eq {number request next : UInt32} {ended : Bool} {steps : List Step}
    (h : Conversation number request next ended steps) :
    builds .syn steps = 1 ∧ builds .fin steps = if ended then 1 else 0 := by
  induction h with
  | answer h =>
    obtain ⟨window, wording⟩ := h.wording
    rw [wording.builds_eq, wording.builds_eq]
    decide
  | @confirm _ ended _ _ _ h ih =>
    obtain ⟨acknowledgement, window, wording⟩ := h.wording
    rw [builds_append, builds_append, ih.1, ih.2, wording.builds_eq, wording.builds_eq]
    cases ended <;> decide
  | deliver _ h ih =>
    obtain ⟨acknowledgement, window, wording⟩ := h.wording
    rw [builds_append, builds_append, ih.1, ih.2, wording.builds_eq, wording.builds_eq]
    decide
  | finish _ h ih =>
    obtain ⟨acknowledgement, window, wording⟩ := h.wording
    rw [builds_append, builds_append, ih.1, ih.2, wording.builds_eq, wording.builds_eq]
    decide

private theorem Downlink.flagged_eq (h : Downlink journal f) {sent : Sent} (pending : f.pending = true)
    (latest : f.reply.latestData = .ok sent.packet) :
    flagged flag sent.packet.bytes = (TcpFlags.ack ∪ .psh).has flag := by
  obtain ⟨packet, segment, latest', read, flags, -⟩ := h.waiting pending
  obtain rfl : packet = sent.packet := Except.ok.inj (latest'.symm.trans latest)
  have parsed : Packet.ofBytes sent.packet.bytes = .ok sent.packet := by
    rw [Packet.bytes_of_ofBytes latest]
    exact latest
  rw [flagged, Segment.ofBytes_eq parsed read, ← flags]

private theorem Move.handedOver_le (h : Downlink journal f)
    (move : Move stimulus ⟨f, r, out⟩ mark ⟨g, r', out'⟩)
    (apart : (TcpFlags.ack ∪ .psh).has flag = false) :
    handedOver flag [⟨f, mark, g⟩] ≤ builds flag [⟨f, mark, g⟩] := by
  have only : handedOver flag [⟨f, mark, g⟩] =
      ((mark.calls f).filter Event.isOffer).countP (Event.handsOver flag) := by
    rw [List.countP_filter]
    simp only [handedOver, calls, List.flatMap_singleton]
    refine List.countP_congr fun event _ => ?_
    cases event <;> simp [Event.handsOver, Event.isOffer]
  rw [only, move.offers]
  simp only [builds, List.countP_singleton]
  cases built : mark.built? with
  | some sent =>
    cases taken : sent.taken <;> simp [Sent.call, Event.handsOver, List.countP_singleton, taken]
  | none =>
    cases retried : mark.retried? with
    | none => simp
    | some sent =>
      obtain ⟨pending, latest⟩ := move.retries retried
      simp [Sent.call, Event.handsOver, h.flagged_eq pending latest, apart]

theorem Run.handedOver_le (run : Run journal s) (apart : (TcpFlags.ack ∪ .psh).has flag = false) :
    handedOver flag journal ≤ builds flag journal := by
  refine (run.invariant (I := fun journal f => Downlink journal f ∧
    handedOver flag journal ≤ builds flag journal) ?_ ?_).2
  · exact fun hf => ⟨hf.downlink, Nat.le_refl 0⟩
  · rintro stimulus journal f g r r' out out' mark ⟨downlink, le⟩ move
    refine ⟨move.downlink downlink, ?_⟩
    rw [handedOver_append, builds_append]
    exact Nat.add_le_add le (move.handedOver_le downlink apart)

/-- A flow is numbered by what it has built. -/
theorem Run.numbered (run : Run journal s) (connected : s.self.phase.isConnecting = false)
    (isOpen : s.self.phase ≠ .closed) : ∃ n, initialNumber journal = some n ∧
      s.self.sequence - n = (builds .syn journal + (passed journal).length + s.self.held.length +
        builds .fin journal).toUInt32 ∧
      builds .syn journal = 1 ∧ builds .fin journal = if s.self.phase.afterRemote then 1 else 0 := by
  have downlink : Downlink journal s.self := run.invariant Fresh.downlink Move.downlink
  obtain ⟨notInitial, notSent⟩ := not_initial_of_connected connected
  obtain ⟨n, chosen, sequence_eq⟩ := downlink.numbered.sequence_eq notInitial isOpen
  obtain ⟨number, request, -, -, conversation⟩ := run.speaking.talking connected isOpen
  obtain ⟨syn, fin⟩ := conversation.builds_eq
  rw [builds_speech] at syn fin
  rw [(run.consistent isOpen).remoteClosed_eq] at sequence_eq fin
  refine ⟨n, chosen, ?_, syn, fin⟩
  rw [sequence_eq, if_neg notSent, downlink.stream_eq, syn, fin, List.length_append,
    UInt32.sub_eq_iff_eq_add]
  cases s.self.phase.afterRemote <;> simp [Nat.toUInt32, UInt32.ofNat_add] <;> ac_rfl

/-- Whether the number of a connected flow counts what was handed over and what waits. -/
theorem Run.number_counts_iff (run : Run journal s) (connected : s.self.phase.isConnecting = false)
    (isOpen : s.self.phase ≠ .closed) {n : UInt32} (chosen : initialNumber journal = some n) :
    s.self.sequence - n = (handedOver .syn journal + (passed journal).length + s.self.held.length +
        handedOver .fin journal).toUInt32 ↔
      handedOver .syn journal = 1 ∧
        handedOver .fin journal = if s.self.phase.afterRemote then 1 else 0 := by
  obtain ⟨n', chosen', sequence_eq, syn, fin⟩ := run.numbered connected isOpen
  obtain rfl : n' = n := Option.some.inj (chosen'.symm.trans chosen)
  have syn_le : handedOver .syn journal ≤ builds .syn journal := run.handedOver_le (by decide)
  have fin_le : handedOver .fin journal ≤ builds .fin journal := run.handedOver_le (by decide)
  rw [sequence_eq, ← fin]
  have few : builds .fin journal ≤ 1 := by
    rw [fin]
    split <;> omega
  -- Both sums are the same up to two packets, far less than the numbers wrap around at.
  simp only [Nat.toUInt32, ← UInt32.toNat_inj, UInt32.toNat_ofNat']
  omega

/-- A connected flow has built one answer, and its end once if its phase is behind that. Its number
counts what was handed over to the device and the payload that waits if and only if the device's side
took these packets when they were offered. -/
theorem Run.number_counts_handed_over (run : Run journal s)
    (connected : s.self.phase.isConnecting = false) (isOpen : s.self.phase ≠ .closed) :
    Continues journal s ∧ ∃ n, initialNumber journal = some n ∧
      builds .syn journal = 1 ∧
      builds .fin journal = (if s.self.phase.afterRemote then 1 else 0) ∧
      (s.self.sequence - n = (handedOver .syn journal + (passed journal).length +
          s.self.held.length + handedOver .fin journal).toUInt32 ↔
        handedOver .syn journal = 1 ∧
          handedOver .fin journal = if s.self.phase.afterRemote then 1 else 0) := by
  obtain ⟨n, chosen, -, syn, fin⟩ := run.numbered connected isOpen
  exact ⟨run.continues, n, chosen, syn, fin, run.number_counts_iff connected isOpen chosen⟩

/-- An answer of which the device's side refuses the payload for now, but neither what comes before it
nor the end behind it. -/
theorem number_counts_handed_over_answer : ∃ journal, ∃ s : Scene TcpFlow Credit, Run journal s ∧
    s.self.phase = .finWait1 ∧ ∃ n, initialNumber journal = some n ∧
    s.self.sequence - n = (handedOver .syn journal + (passed journal).length +
      s.self.held.length + handedOver .fin journal).toUInt32 := by
  obtain ⟨journal, s, run, result⟩ := exists_run_of_enacts
    (p := fun events t => t.self.phase == .finWait1 &&
      events.countP (Event.handsOver .syn) == 1 && events.countP (Event.handsOver .fin) == 1)
    (show enacts (devicePacket .syn 0x110 0 []) { streamCapacity := 16 }
      { sockets := [(0, { arrivals := [.data [104, 105], .finished] })] }
      [(⟨none⟩, .ofDevice .syn 0x110 0 []),
        (⟨none⟩, .ready { writable := true }),
        (⟨some 0⟩, .ofDevice .ack 0x111 0x1001 []),
        (⟨none⟩, .pull)] _ = true by
      decide +kernel)
  simp only [Bool.and_eq_true, beq_iff_eq] at result
  obtain ⟨⟨phase, syn⟩, fin⟩ := result
  obtain ⟨-, n, chosen, -, -, counts⟩ :=
    run.number_counts_handed_over (by rw [phase]; rfl) (by simp [phase])
  refine ⟨journal, s, run, phase, n, chosen, counts.2 ⟨syn, ?_⟩⟩
  rw [phase]
  exact fin

/-- The end of the stream is refused when the socket has come to it: the flow has spent a number on it
and waits for its confirmation, but the device is never told. -/
theorem not_number_counts_handed_over : ∃ journal, ∃ s : Scene TcpFlow Credit, Run journal s ∧
    s.self.phase = .finWait1 ∧ handedOver .fin journal = 0 ∧
    ∃ n, initialNumber journal = some n ∧
      s.self.sequence - n ≠ (handedOver .syn journal + (passed journal).length +
        s.self.held.length + handedOver .fin journal).toUInt32 := by
  obtain ⟨journal, s, run, result⟩ := exists_run_of_enacts
    (p := fun events t => t.self.phase == .finWait1 &&
      events.countP (Event.handsOver .fin) == 0)
    (show enacts (devicePacket .syn 0x110 0 []) { streamCapacity := 16 }
      { sockets := [(0, { arrivals := [.failure .wouldBlock, .finished] })] }
      [(⟨none⟩, .ofDevice .syn 0x110 0 []),
        (⟨none⟩, .ready { writable := true }),
        (⟨none⟩, .ofDevice .ack 0x111 0x1001 []),
        (⟨some 0⟩, .ready { readable := true })] _ = true by
      decide +kernel)
  simp only [Bool.and_eq_true, beq_iff_eq] at result
  obtain ⟨phase, fin⟩ := result
  have connected : s.self.phase.isConnecting = false := by
    rw [phase]
    rfl
  have isOpen : s.self.phase ≠ .closed := by simp [phase]
  obtain ⟨n, chosen, -⟩ := run.numbered connected isOpen
  refine ⟨journal, s, run, phase, fin, n, chosen, fun counts => ?_⟩
  have spent := ((run.number_counts_iff connected isOpen chosen).1 counts).2
  rw [phase, show handedOver .fin journal = 0 from fin] at spent
  cases spent

end TcpFlow

end TunnelRelay
