import Mathlib.Data.List.Induction
import TunnelRelay.Proofs.Flow.Tcp.Conversation
import TunnelRelay.Proofs.Flow.Tcp.HalfClose

/-!
# The number behind the end of the device's stream

The end of the device's stream takes one number. After it nothing that the device sends moves the number
that the flow acknowledges, be it payload or out of order, except one thing: an end without payload at
the very number that the flow acknowledged last is taken for an end once more, and counts once more.
-/

namespace TunnelRelay

open Act

namespace Phase

variable {phase : Phase}

theorem isConnecting_of_afterDevice (h : phase.afterDevice = true) : phase.isConnecting = false := by
  cases phase <;> first | rfl | cases h

theorem takesPayload_of_afterDevice (h : phase.afterDevice = true) : phase.takesPayload = false := by
  cases phase <;> first | rfl | cases h

end Phase

namespace TcpFlow

/-- The segment carries nothing but the end of a stream, at the number that the flow acknowledges. -/
structure EndsAgain (f : TcpFlow) (segment : Segment) : Prop where
  inOrder : f.InOrder segment
  fin : segment.flags.has .fin = true
  bare : segment.payload = []

variable {σ : Type} [Outlet σ] {stimulus : Stimulus} {f g : TcpFlow} {r r' : Registry}
  {out out' : σ} {mark : Mark} {journal steps : List Step} {s t : Scene TcpFlow σ} {segment : Segment}

/-- The end of a stream takes one number, whenever it is noted. -/
theorem Move.expected_of_isEnd (move : Move stimulus ⟨f, r, out⟩ mark ⟨g, r', out'⟩)
    (isEnd : mark.isEnd = true) : g.expected = f.expected + 1 := by
  cases move.expects with
  | same noEnd _ => exact absurd (noEnd.symm.trans isEnd) Bool.false_ne_true
  | opening _ _ noEnd _ => exact absurd (noEnd.symm.trans isEnd) Bool.false_ne_true
  | took mark_eq _ _ _ =>
    subst mark_eq
    cases isEnd
  | ended _ _ _ expected_eq => exact expected_eq

/-- After the end nothing moves the number but a further end. -/
theorem Move.expected_of_afterDevice (move : Move stimulus ⟨f, r, out⟩ mark ⟨g, r', out'⟩)
    (finished : f.phase.afterDevice = true) :
    mark.isEnd = false ∧ g.expected = f.expected ∨
      mark.isEnd = true ∧ ∃ segment, stimulus = .segment segment ∧ f.AtEnd segment := by
  cases move.expects with
  | same noEnd expected_eq => exact .inl ⟨noEnd, expected_eq⟩
  | opening _ connecting _ _ =>
    cases (Phase.isConnecting_of_afterDevice finished).symm.trans connecting
  | took _ _ phase _ => cases (Phase.takesPayload_of_afterDevice finished).symm.trans phase
  | ended isEnd received atEnd _ => exact .inr ⟨isEnd, _, received, atEnd⟩

/-- A flow that has noted the end of the device's stream. -/
structure Finished (f : TcpFlow) : Prop where
  deviceClosed : f.deviceClosed = true
  consistent : f.phase ≠ .closed → Consistent f

theorem Finished.afterDevice (h : Finished f) (isOpen : f.phase ≠ .closed) :
    f.phase.afterDevice = true :=
  (h.consistent isOpen).deviceClosed_eq.symm.trans h.deviceClosed

theorem Move.finished (h : Finished f) (move : Move stimulus ⟨f, r, out⟩ mark ⟨g, r', out'⟩) :
    Finished g where
  deviceClosed := by rw [move.deviceClosed_eq, h.deviceClosed, Bool.true_or]
  consistent := move.consistent h.consistent

theorem Run.finished (run : Run journal s) (ended : s.self.deviceClosed = true) :
    Finished s.self := ⟨ended, run.consistent⟩

theorem Move.not_took (finished : Finished f)
    (move : Move stimulus ⟨f, r, out⟩ mark ⟨g, r', out'⟩) (sent : Sent) : mark ≠ .took segment sent := by
  rintro rfl
  cases move with
  | took _ inOrder _ phase _ _ _ =>
    have untaken := Phase.takesPayload_of_afterDevice (finished.afterDevice inOrder.isOpen)
    exact Bool.false_ne_true (untaken.symm.trans phase)

theorem Path.not_takes (path : Path stimulus s steps t) (finished : Finished s.self) :
    ¬Takes segment steps := by
  refine (path.invariant (I := fun journal f => Finished f ∧ ¬Takes segment journal) ?_ []
    ⟨finished, fun ⟨_, listed, _⟩ => absurd listed List.not_mem_nil⟩).2
  rintro journal f g r r' out out' mark ⟨hf, untaken⟩ move
  refine ⟨move.finished hf, ?_⟩
  rintro ⟨step, listed, sent, took⟩
  rcases List.mem_append.1 listed with earlier | last
  · exact untaken ⟨step, earlier, sent, took⟩
  · obtain rfl := List.mem_singleton.1 last
    exact move.not_took hf sent took

theorem Path.finished (path : Path stimulus s steps t) (finished : Finished s.self) :
    Finished t.self :=
  path.invariant (I := fun _ f => Finished f) (fun hf move => move.finished hf) [] finished

/-- One reaction of a finished flow comes upon at most one more end. -/
theorem Path.expected_of_finished (path : Path stimulus s steps t) (finished : Finished s.self) :
    t.self.expected = s.self.expected ∨
      t.self.expected = s.self.expected + 1 ∧
        ∃ segment, stimulus = .segment segment ∧ s.self.AtEnd segment := by
  by_cases closed : s.self.phase = .closed
  · obtain ⟨-, same, -⟩ := path.of_closed closed
    exact .inl (congrArg _ same)
  have connected := Phase.isConnecting_of_afterDevice (finished.afterDevice closed)
  refine (path.invariant (I := fun _ f => Finished f ∧ (f.expected = s.self.expected ∨
    f.expected = s.self.expected + 1 ∧
      ∃ segment, stimulus = .segment segment ∧ s.self.AtEnd segment)) ?_ []
    ⟨finished, .inl rfl⟩).2
  rintro journal f g r r' out out' mark ⟨hf, before⟩ move
  refine ⟨move.finished hf, ?_⟩
  rcases move.expected_of_afterDevice (hf.afterDevice move.isOpen) with
    ⟨-, same⟩ | ⟨isEnd, segment, received, atEnd⟩
  · rwa [same]
  rcases before with same | ⟨moved, segment', received', atEnd'⟩
  · exact .inr ⟨same ▸ move.expected_of_isEnd isEnd, segment, received, connected, closed, atEnd.not_syn,
      atEnd.not_rst, atEnd.fin, same ▸ atEnd.expected_eq⟩
  · -- The flow expects more by now than the segment reaches.
    obtain rfl := Stimulus.segment.inj (received.symm.trans received')
    have still := atEnd.expected_eq.trans atEnd'.expected_eq.symm
    rw [moved] at still
    simp at still

theorem Operation.eq_receive_of_stimulus {operation : Operation}
    (h : operation.stimulus = .segment segment) :
    ∃ packet, operation = .receive packet ∧ Segment.ofPacket packet = .ok (some segment) := by
  cases operation with
  | receive packet =>
    refine ⟨packet, rfl, ?_⟩
    simp only [Operation.stimulus] at h
    split at h
    · next found read =>
      cases found with
      | none => cases h
      | some found => exact (Stimulus.segment.inj h) ▸ read
    · cases h
  | _ => cases h

/-- Nothing but another end moves the number of a finished flow. -/
theorem Run.expected_of_finished (run : Run journal s) (ended : s.self.deviceClosed = true)
    {operation : Operation} (performed : operation.perform s = .ok ((), t)) :
    t.self.expected = s.self.expected ∨
      t.self.expected = s.self.expected + 1 ∧ ∃ packet segment, operation = .receive packet ∧
        Segment.ofPacket packet = .ok (some segment) ∧ s.self.EndsAgain segment := by
  have finished := run.finished ended
  obtain ⟨steps, path, -, -⟩ := run.continues operation t performed
  rcases path.expected_of_finished finished with same | ⟨moved, segment, received, atEnd⟩
  · exact .inl same
  obtain ⟨packet, rfl, read⟩ := Operation.eq_receive_of_stimulus received
  by_cases bare : segment.payload = []
  · refine .inr ⟨moved, packet, segment, rfl, read, ⟨atEnd.connected, atEnd.isOpen, atEnd.not_syn,
      atEnd.not_rst, ?_⟩, atEnd.fin, bare⟩
    rw [atEnd.expected_eq, bare]
    exact (UInt32.add_zero _).symm
  -- The end waits for payload that a finished flow does not take.
  obtain ⟨more, path', -, taken | ⟨-, -, same | ⟨connecting, -⟩⟩⟩ := run.exists_whole read bare performed
  · exact absurd taken (path'.not_takes finished)
  · exact .inl same
  · exact absurd (atEnd.connected.symm.trans connecting) Bool.false_ne_true

/-- What becomes of the number when the device ends its stream again. -/
def CountsAgain (s : Scene TcpFlow σ) (segment : Segment) (t : Scene TcpFlow σ) : Prop :=
  t.self.expected = s.self.expected + 1 ∨
    segment.flags.has .ack = true ∧ t.self.phase = .closed ∧ t.self.expected = s.self.expected

private theorem ensures_handleFin_again (finished : s.self.phase.afterDevice = true) :
    Ensures handleFin s fun _ t =>
      t.self.expected = s.self.expected + 1 ∧ t.self.phase.isConnecting = false := by
  have connected := Phase.isConnecting_of_afterDevice finished
  simp only [handleFin, ensures_bind, ensures_modifySelf, ensures_self]
  split
  · next phase => cases (congrArg Phase.afterDevice phase).symm.trans finished
  · next phase => cases (congrArg Phase.afterDevice phase).symm.trans finished
  · next phase => cases (congrArg Phase.afterDevice phase).symm.trans finished
  · next phase => cases (congrArg Phase.afterDevice phase).symm.trans finished
  · rw [ensures_bind]
    apply ensures_sendControl
    intro sent g out host emits _
    refine ensures_maybeShutWrite_course .other fun steps t course _ => ?_
    have still : g.phase.isConnecting = false := (congrArg _ emits.same.phase_eq).trans connected
    obtain ⟨expected, still'⟩ := course.path.expected_eq still
    exact ⟨expected.trans emits.same.expected_eq, still'⟩

private theorem ensures_handleContent_again (again : s.self.EndsAgain segment)
    (finished : Finished s.self) :
    Ensures (handleContent segment) s fun _ t =>
      t.self.expected = s.self.expected + 1 ∧ t.self.phase.isConnecting = false := by
  have isOpen := again.inOrder.isOpen
  unfold handleContent
  rw [if_pos again.bare, ensures_bind, ensures_pure, ensures_bind, ensures_self,
    if_pos (by simp [isClosed, isOpen, again.fin])]
  exact ensures_handleFin_again (finished.afterDevice isOpen)

private theorem ensures_handleSegment_again (again : s.self.EndsAgain segment)
    (finished : Finished s.self) :
    Ensures (handleSegment segment) s fun _ t =>
      CountsAgain s segment t ∧ t.self.phase.isConnecting = false := by
  have inOrder := again.inOrder
  simp only [handleSegment, ensures_bind, ensures_self]
  rw [if_neg (by simp [inOrder.not_rst]), if_neg (not_initial_of_connected inOrder.connected).2,
    if_neg (by simp [inOrder.sequence_eq])]
  have content {t : Scene TcpFlow σ} (isOpen : t.self.phase ≠ .closed)
      (again' : t.self.EndsAgain segment) (finished' : Finished t.self)
      (same : t.self.expected = s.self.expected) :
      Ensures (do
        if (← self).isClosed then
          return ()
        else
          handleContent segment) t fun _ u =>
        CountsAgain s segment u ∧ u.self.phase.isConnecting = false := by
    rw [ensures_bind, ensures_self, if_neg (by simpa [isClosed] using isOpen)]
    refine (ensures_handleContent_again again' finished').mono ?_
    rintro _ u ⟨moved, connected⟩
    exact ⟨.inl (same ▸ moved), connected⟩
  split
  · next ack =>
    rw [ensures_bind]
    refine ensures_handleAck rfl inOrder ack fun steps t course downstream inOrder' => ?_
    have same : t.self.expected = s.self.expected := by
      have noEnd (step : Step) (listed : step ∈ steps) : step.mark.isEnd = false :=
        Mark.not_isEnd_of_isDownstream (downstream step listed)
      refine (course.path.expected_of_untaken (course.path.not_takes finished) noEnd).resolve_right ?_
      rintro ⟨connecting, -⟩
      exact Bool.false_ne_true (inOrder.connected.symm.trans connecting)
    by_cases closed : t.self.phase = .closed
    · rw [ensures_bind, ensures_self, if_pos (by simp [isClosed, closed]), ensures_pure, closed]
      exact ⟨.inr ⟨ack, closed, same⟩, rfl⟩
    · exact content closed ⟨(inOrder' closed).1, again.fin, again.bare⟩ (course.path.finished finished)
        same
  · exact content inOrder.isOpen again finished rfl

/-- Another end of the device's stream moves the number, unless what it confirms ends the flow before. -/
theorem Run.countsAgain (run : Run journal s) (ended : s.self.deviceClosed = true)
    {packet : Packet} (found : Segment.ofPacket packet = .ok (some segment))
    (again : s.self.EndsAgain segment) (received : receive packet s = .ok ((), t)) :
    CountsAgain s segment t := by
  have inOrder := again.inOrder
  have notInitial := (not_initial_of_connected inOrder.connected).1
  refine (?_ : Ensures (receive packet) s fun _ t => CountsAgain s segment t) () t received
  simp only [receive, ensures_bind, ensures_liftM]
  intro found' read
  obtain rfl : found' = some segment := Except.ok.inj (read.symm.trans found)
  simp only [ensures_bind, ensures_say, ensures_self]
  generalize Host.record _ s.host = host
  split
  · next closed => exact absurd closed inOrder.isOpen
  · next phase => exact absurd phase notInitial
  rw [if_neg (by simp [inOrder.not_syn]), ensures_bind]
  refine (ensures_handleSegment_again (s := { s with host }) again (run.finished ended)).mono ?_
  rintro _ t ⟨counts, connected⟩
  refine ensures_updateInterest .other fun steps u course => ?_
  obtain ⟨same, -⟩ := course.path.expected_eq connected
  rcases counts with moved | ⟨ack, closed, kept⟩
  · exact .inl (same.trans moved)
  · obtain ⟨-, still, -⟩ := course.path.of_closed closed
    exact .inr ⟨ack, still ▸ closed, still ▸ kept⟩

theorem Shutting.finished (h : Shutting journal f) (ended : 0 < ends journal) : Finished f where
  deviceClosed := h.deviceClosed_eq.trans (decide_eq_true ended)
  consistent := h.consistent

theorem Move.expected_of_ended (h : Shutting journal f) (ended : 0 < ends journal)
    (move : Move stimulus ⟨f, r, out⟩ mark ⟨g, r', out'⟩) (noEnd : mark.isEnd = false) :
    g.expected = f.expected := by
  have finished := (h.finished ended).afterDevice move.isOpen
  rcases move.expected_of_afterDevice finished with ⟨-, same⟩ | ⟨isEnd, -⟩
  · exact same
  · exact absurd (noEnd.symm.trans isEnd) Bool.false_ne_true

/-- The number is the one behind the first end, and one further for each end after that. -/
structure Counting (journal : List Step) (f : TcpFlow) : Prop where
  shutting : Shutting journal f
  expected_eq : ∀ pre step, pre ++ [step] <+: journal → step.mark.isEnd = true → ends pre = 0 →
    f.expected = step.after.expected + (ends journal - 1).toUInt32

theorem Fresh.counting (fresh : Fresh f) : Counting [] f :=
  ⟨fresh.shutting, fun pre step h => by simp at h⟩

theorem Move.counting (h : Counting journal f)
    (move : Move stimulus ⟨f, r, out⟩ mark ⟨g, r', out'⟩) :
    Counting (journal ++ [⟨f, mark, g⟩]) g := by
  refine ⟨move.shutting h.shutting, fun pre step isPrefix isEnd first => ?_⟩
  rw [ends_concat]
  rcases List.prefix_concat_iff.1 isPrefix with same | earlier
  · obtain ⟨rfl, ⟨⟩⟩ := List.append_inj' same rfl
    rw [first, isEnd]
    exact (UInt32.add_zero _).symm
  have before := h.expected_eq pre step earlier isEnd first
  have ended : 0 < ends journal := by
    refine Nat.lt_of_lt_of_le ?_ (earlier.sublist.countP_le)
    simp [isEnd]
  cases again : mark.isEnd with
  | false =>
    rw [move.expected_of_ended h.shutting ended again]
    simpa using before
  | true =>
    obtain ⟨n, counted⟩ := Nat.exists_eq_add_of_lt ended
    rw [move.expected_of_isEnd again, before, UInt32.add_assoc, counted]
    simp [Nat.toUInt32, UInt32.ofNat_add]

theorem exists_further_end (more : 1 < ends journal) :
    ∃ pre step, pre ++ [step] <+: journal ∧ 0 < ends pre ∧ step.mark.isEnd = true := by
  induction journal using List.reverseRecOn with
  | nil => cases more
  | append_singleton steps step ih =>
    rw [ends_concat] at more
    by_cases further : 1 < ends steps
    · obtain ⟨pre, step', isPrefix, found⟩ := ih further
      exact ⟨pre, step', isPrefix.trans (List.prefix_append ..), found⟩
    · cases isEnd : step.mark.isEnd with
      | false => simp [isEnd, further] at more
      | true =>
        rw [isEnd, if_pos rfl] at more
        exact ⟨steps, step, List.prefix_rfl, Nat.lt_of_succ_lt_succ more, isEnd⟩

/-- What a step makes of the number that is acknowledged, and what its packet says of it. The steps `pre`
came before. -/
structure Step.Counts (pre : List Step) (step : Step) : Prop where
  atEnd : step.mark.isEnd = true → step.after.expected = step.before.expected + 1
  pastEnd : 0 < ends pre → step.mark.isEnd = false → step.after.expected = step.before.expected
  acknowledged : ∀ sent, step.mark.built? = some sent → ∃ segment,
    Segment.ofPacket sent.packet = .ok (some segment) ∧
      segment.acknowledgement = step.after.expected

theorem Run.counts (run : Run journal s) {pre : List Step} {step : Step}
    (isPrefix : pre ++ [step] <+: journal) : step.Counts pre := by
  obtain ⟨before, -, _, _, _, _, _, move⟩ :=
    run.invariant_step (I := Shutting) Fresh.shutting Move.shutting isPrefix
  refine ⟨move.expected_of_isEnd, move.expected_of_ended before, fun sent built => ?_⟩
  obtain ⟨segment, wording, acknowledgement, -⟩ := move.built_eq before.uplink.healthy built
  exact ⟨segment, wording, acknowledgement⟩

theorem Run.fixed_iff (run : Run journal s) :
    (∀ pre step, pre ++ [step] <+: journal → 0 < ends pre →
      step.after.expected = step.before.expected) ↔ ends journal ≤ 1 := by
  constructor
  · intro fixed
    by_contra more
    obtain ⟨pre, step, isPrefix, ended, isEnd⟩ := exists_further_end (Nat.lt_of_not_le more)
    have moved := (run.counts isPrefix).atEnd isEnd
    rw [fixed pre step isPrefix ended] at moved
    simp at moved
  · intro once pre step isPrefix ended
    refine (run.counts isPrefix).pastEnd ended ?_
    have counted : ends (pre ++ [step]) ≤ ends journal := isPrefix.sublist.countP_le
    rw [ends_concat] at counted
    by_contra isEnd
    rw [Bool.not_eq_false] at isEnd
    rw [isEnd, if_pos rfl] at counted
    omega

/-- In every run each end of the device's stream takes one number. After the first no other move changes
the number, which every packet of the flow acknowledges as it is by then, so that it stays the same
exactly if no further end is noted. It is noted for a segment that carries nothing but an end at that
number, and for no other segment and no other reason. Every packet is handled without a fault. -/
theorem Run.number_past_end (run : Run journal s) :
    Continues journal s ∧
    (∀ pre step, pre ++ [step] <+: journal → step.Counts pre ∧
      (ends pre = 0 → step.mark.isEnd = true →
        s.self.expected = step.after.expected + (ends journal - 1).toUInt32)) ∧
    ((∀ pre step, pre ++ [step] <+: journal → 0 < ends pre →
      step.after.expected = step.before.expected) ↔ ends journal ≤ 1) ∧
    (s.self.deviceClosed = true →
      (∀ (operation : Operation) (t : Scene TcpFlow σ), operation.perform s = .ok ((), t) →
        t.self.expected = s.self.expected ∨
          t.self.expected = s.self.expected + 1 ∧ ∃ packet segment, operation = .receive packet ∧
            Segment.ofPacket packet = .ok (some segment) ∧ s.self.EndsAgain segment) ∧
      ∀ packet segment t, Segment.ofPacket packet = .ok (some segment) →
        s.self.EndsAgain segment → receive packet s = .ok ((), t) → CountsAgain s segment t) ∧
    ∀ (journal : List Step) (s : Scene TcpFlow Outbox), Run journal s → s.out.ring.Sound →
      ∀ bytes packet, Packet.ofBytes bytes = .ok packet → ∃ t, receive packet s = .ok ((), t) := by
  refine ⟨run.continues, fun pre step isPrefix => ⟨run.counts isPrefix, fun first isEnd => ?_⟩,
    run.fixed_iff, fun ended => ⟨fun operation t => run.expected_of_finished ended, ?_⟩,
    fun journal s run sound bytes packet => run.receive_isOk sound⟩
  · have counting := run.invariant (I := Counting) Fresh.counting Move.counting
    exact counting.expected_eq pre step isPrefix isEnd first
  · exact fun packet segment t found again => run.countsAgain ended found again

/-- A device is connected and ends its stream at once. -/
def endedAtOnce : List (Credit × Operation) :=
  [(⟨none⟩, .ofDevice .syn 0x110 0 []), (⟨none⟩, .ready { writable := true }),
    (⟨none⟩, .ofDevice .ack 0x111 0x1001 []), (⟨none⟩, .ofDevice (.fin ∪ .ack) 0x111 0x1001 [])]

/-- More payload, and an end, behind the end of a stream. -/
def afterword : Packet where
  bytes := devicePacket (.fin ∪ .psh ∪ .ack) 0x112 0x1001 [104, 105]
  transport := some (.tcp, 20)

/-- A device that has ended its stream sends more, in order and with an end. The number stays. -/
theorem number_past_end_afterword : ∃ journal, ∃ s t : Scene TcpFlow Credit, Run journal s ∧
    s.self.deviceClosed = true ∧ receive afterword s = .ok ((), t) ∧
      t.self.expected = s.self.expected := by
  obtain ⟨journal, s, run, result⟩ := exists_run_of_enacts
    (p := fun _ s => s.self.deviceClosed && endsAs (receive afterword) s fun _ => true)
    (show enacts (devicePacket .syn 0x110 0 []) { streamCapacity := 16 } {} endedAtOnce _ = true by
      decide +kernel)
  simp only [Bool.and_eq_true] at result
  obtain ⟨ended, handled⟩ := result
  obtain ⟨t, performed, -⟩ := exists_of_endsAs handled
  refine ⟨journal, s, t, run, ended, performed, ?_⟩
  refine ((run.number_past_end.2.2.2.1 ended).1 (.receive afterword) t performed).resolve_right ?_
  rintro ⟨-, _, segment, ⟨⟩, read, again⟩
  have found : Segment.ofPacket afterword =
      .ok (some ⟨.fin ∪ .psh ∪ .ack, 0x112, 0x1001, 0x1000, [104, 105]⟩) := rfl
  cases read.symm.trans found
  cases again.bare

/-- The end of a stream once more, one number further than the first. -/
def secondEnd : Packet where
  bytes := devicePacket (.fin ∪ .ack) 0x112 0x1001 []
  transport := some (.tcp, 20)

/-- A flow that has noted the end of the device's stream acknowledges more than it when the device ends
the stream again. -/
theorem not_number_fixed_past_end : ¬∀ (journal : List Step) (s t : Scene TcpFlow Credit)
    (operation : Operation), Run journal s → s.self.deviceClosed = true →
    operation.perform s = .ok ((), t) → t.self.expected = s.self.expected := by
  intro fixed
  obtain ⟨journal, s, run, result⟩ := exists_run_of_enacts
    (p := fun _ s => s.self.deviceClosed &&
      endsAs (receive secondEnd) s fun t => t.self.expected != s.self.expected)
    (show enacts (devicePacket .syn 0x110 0 []) { streamCapacity := 16 } {} endedAtOnce _ = true by
      decide +kernel)
  simp only [Bool.and_eq_true] at result
  obtain ⟨t, performed, moved⟩ := exists_of_endsAs result.2
  rw [fixed journal s t (.receive secondEnd) run result.1 performed] at moved
  simp at moved

end TcpFlow

end TunnelRelay
