import TunnelRelay.Proofs.Flow.Tcp.Conversation
import TunnelRelay.Proofs.Flow.Tcp.Faultless
import TunnelRelay.Proofs.Flow.Tcp.Interest
import TunnelRelay.Proofs.Reading

/-!
# Segments that the device sends again

A device that has seen no acknowledgement sends its segment again. By then the flow expects what comes
behind it, so that nothing is taken twice. It says nothing either: what was lost on the way to the
device is never said again.
-/

namespace TunnelRelay

open Act

namespace TcpFlow

/-- The segment of which payload or end was taken. -/
def Mark.content? : Mark → Option Segment
  | took segment _ | ended segment _ | closed (.finished segment _) _ => some segment
  | _ => none

/-- The last segment of the device of which anything was taken. -/
def lastContent (steps : List Step) : Option Segment :=
  (steps.filterMap fun step => step.mark.content?).getLast?

variable {σ : Type} [Outlet σ] {stimulus : Stimulus} {f g : TcpFlow} {r r' : Registry}
  {out out' : σ} {mark : Mark} {journal steps : List Step} {s t : Scene TcpFlow σ}
  {segment : Segment}

theorem lastContent_concat (step : Step) :
    lastContent (journal ++ [step]) = step.mark.content?.or (lastContent journal) := by
  unfold lastContent
  cases h : step.mark.content? <;> simp [h]

/-- The flow is connected and expects what comes behind the segment. -/
structure Behind (segment : Segment) (f : TcpFlow) : Prop where
  connected : f.phase.isConnecting = false
  not_syn : segment.flags.has .syn = false
  not_rst : segment.flags.has .rst = false
  expected_eq : ∃ n, 0 < n ∧ n ≤ segment.payload.length + 1 ∧
    f.expected = segment.sequence + n.toUInt32

theorem Mark.not_isEnd_of_content? (nothing : mark.content? = none) : mark.isEnd = false := by
  cases mark with
  | closed ending _ => cases ending <;> first | rfl | cases nothing
  | _ => first | rfl | cases nothing

private theorem Move.keeps_expected (move : Move stimulus ⟨f, r, out⟩ mark ⟨g, r', out'⟩)
    (connected : f.phase.isConnecting = false) (nothing : mark.content? = none) :
    g.expected = f.expected := by
  cases move.expects with
  | same _ expected_eq => exact expected_eq
  | opening _ connecting _ _ => exact absurd (connected.symm.trans connecting) Bool.false_ne_true
  | took mark_eq _ _ _ =>
    subst mark_eq
    cases nothing
  | ended isEnd _ _ _ =>
    exact absurd ((Mark.not_isEnd_of_content? nothing).symm.trans isEnd) Bool.false_ne_true

private theorem Move.content (move : Move stimulus ⟨f, r, out⟩ mark ⟨g, r', out'⟩)
    (content : mark.content? = some segment) :
    stimulus = .segment segment ∧ (g.phase ≠ .closed → Behind segment g) := by
  have still := move.stays_connected
  cases move with
  | took received inOrder nonempty _ _ _ emits =>
    cases content
    refine ⟨received, fun _ => ⟨still inOrder.connected, inOrder.not_syn, inOrder.not_rst, ?_⟩⟩
    refine ⟨segment.payload.length, List.length_pos_iff.2 nonempty, Nat.le_succ _, ?_⟩
    rw [emits.same.expected_eq, inOrder.sequence_eq]
  | ended received atEnd _ emits =>
    cases content
    refine ⟨received, fun _ => ⟨still atEnd.connected, atEnd.not_syn, atEnd.not_rst, ?_⟩⟩
    refine ⟨segment.payload.length + 1, Nat.succ_pos _, Nat.le_refl _, ?_⟩
    have expected : _ = f.expected + 1 := emits.same.expected_eq
    rw [expected, atEnd.expected_eq, UInt32.add_assoc]
    simp [Nat.toUInt32, UInt32.ofNat_add]
  | closed _ ends _ =>
    cases ends with
    | finished received _ _ _ =>
      cases content
      exact ⟨received, fun isOpen => absurd rfl isOpen⟩
    | _ => cases content
  | _ => cases content

theorem Run.behind (run : Run journal s) (isOpen : s.self.phase ≠ .closed)
    (last : lastContent journal = some segment) : Behind segment s.self := by
  refine run.invariant (I := fun journal f => f.phase ≠ .closed →
    ∀ segment, lastContent journal = some segment → Behind segment f) ?_ ?_ isOpen segment last
  · rintro f - - segment ⟨⟩
  · intro stimulus journal f g r r' out out' mark hf move isOpen segment last
    rw [lastContent_concat] at last
    cases content : mark.content? with
    | none =>
      rw [content, Option.none_or] at last
      obtain ⟨connected, not_syn, not_rst, expected⟩ := hf move.isOpen segment last
      refine ⟨move.stays_connected connected, not_syn, not_rst, ?_⟩
      rwa [move.keeps_expected connected content]
    | some found =>
      rw [content] at last
      cases last
      exact (move.content content).2 isOpen

/-- In every run a segment that the device sends again, with the same number, flags and payload as the
last one of which anything was taken, changes nothing but what the host has noted: nothing is taken a
second time, and no packet acknowledges it, not even if the last acknowledgement was refused. -/
theorem Run.retransmission_ignored (run : Run journal s) (isOpen : s.self.phase ≠ .closed)
    (last : lastContent journal = some segment) {bytes : Bytes} {packet : Packet}
    {again : Segment} (parsed : Packet.ofBytes bytes = .ok packet)
    (read : Segment.ofPacket packet = .ok (some again))
    (sequence_eq : again.sequence = segment.sequence) (flags_eq : again.flags = segment.flags)
    (payload_eq : again.payload = segment.payload) :
    ∃ host, (Operation.receive packet).perform s = .ok ((), { s with host }) ∧
      s.host.After [] host ∧ Run journal { s with host } := by
  obtain ⟨connected, not_syn, not_rst, n, pos, le, expected⟩ := run.behind isOpen last
  obtain ⟨notInitial, notSent⟩ := not_initial_of_connected connected
  have short : segment.payload.length ≤ maxPacketLength := by
    obtain ⟨found, read', short⟩ := (Packet.judged_of_ofBytes parsed).segment_isOk
    cases read'.symm.trans read
    exact payload_eq ▸ short again rfl
  -- The number has moved on by less than it takes to come around.
  have moved : again.sequence ≠ s.self.expected := by
    unfold maxPacketLength at short
    rw [sequence_eq, expected]
    simp [← UInt32.toNat_inj]
    omega
  have ignored : Achieves (Operation.receive packet).perform s fun _ t =>
      ∃ host, t = { s with host } ∧ s.host.After [] host := by
    simp only [Operation.perform, receive, achieves_bind, achieves_liftM]
    refine ⟨some again, read, ?_⟩
    simp only [achieves_bind, achieves_say, achieves_self]
    rw [if_neg (by simp [flags_eq, not_syn])]
    simp only [achieves_bind, handleSegment, achieves_self]
    rw [if_neg (by simp [flags_eq, not_rst]), if_neg notSent, if_pos moved, achieves_say]
    exact achieves_updateInterest_of_registered run.registered
      (((Host.After.refl _).note _).note _)
  obtain ⟨_, _, performed, host, rfl, called⟩ := ignored
  exact ⟨host, performed, called, run.world s.registry s.out host⟩

private theorem Path.content (path : Path (.segment segment) s steps t) :
    ∀ found ∈ steps.filterMap fun step => step.mark.content?, found = segment := by
  induction path with
  | quiet _ => nofun
  | @move s mark _ _ _ _ move _ =>
    intro found h
    have content : mark.content? = some found := by simpa using h
    exact (Stimulus.segment.inj (move.content content).1).symm
  | append _ _ ih ih' =>
    intro found h
    rw [List.filterMap_append, List.mem_append] at h
    exact h.elim (ih found) (ih' found)

/-- A packet of which payload was taken is the last of which anything was. -/
theorem Path.lastContent_eq (path : Path (.segment segment) s steps t) (nonempty : accepted steps ≠ []) :
    lastContent (journal ++ steps) = some segment ∧
      ∃ step ∈ steps, ∃ sent, step.mark = .took segment sent := by
  have took : ∃ step ∈ steps, step.mark.accepted ≠ [] := by
    simpa [accepted, List.flatMap_eq_nil_iff] using nonempty
  obtain ⟨step, mem, payload⟩ := took
  have content {found : Segment} (h : step.mark.content? = some found) :
      found ∈ steps.filterMap fun step => step.mark.content? := List.mem_filterMap.2 ⟨step, mem, h⟩
  cases mark : step.mark with
  | took found sent =>
    have here := content (by rw [mark]; rfl)
    obtain rfl := path.content found here
    refine ⟨?_, step, mem, sent, mark⟩
    have last_eq := List.getLast?_eq_some_getLast (List.ne_nil_of_mem here)
    rw [lastContent, List.filterMap_append, List.getLast?_append, last_eq, Option.some_or,
      path.content _ (List.getLast_mem _)]
  | _ =>
    rw [mark] at payload
    exact absurd rfl payload

/-- A greeting of the device. -/
def greeting : Packet where
  bytes := devicePacket (.psh ∪ .ack) 0x111 0x1001 [104, 101, 108, 108, 111]
  transport := some (.tcp, 20)

def greetingSegment : Segment where
  flags := .psh ∪ .ack
  sequence := 0x111
  acknowledgement := 0x1001
  window := 0x1000
  payload := [104, 101, 108, 108, 111]

private theorem greeting_parsed : Packet.ofBytes greeting.bytes = .ok greeting := by rfl

private theorem greeting_read : Segment.ofPacket greeting = .ok (some greetingSegment) := by
  rfl

private def isHandedOver : Event → Bool
  | .offer _ taken => taken
  | _ => false

-- Nothing was taken before, but the greeting is, when the device's side has no room for a packet.
-- Once it has room, the same greeting makes the flow call nothing.
private def unheard (events : List Event) (s : Scene TcpFlow Credit) : Bool :=
  match receive greeting ({ s with out := ⟨some 0⟩ } : Scene TcpFlow Credit) with
  | .ok (_, t) =>
    events.flatMap Event.written == [] && s.self.ring.toList == [] &&
      t.self.phase == .established && t.self.ring.toList == greetingSegment.payload &&
      !(t.host.calls.take (t.host.calls.length - s.host.calls.length)).any isHandedOver &&
      match receive greeting ({ t with out := ⟨none⟩ } : Scene TcpFlow Credit) with
      | .ok (_, u) => u.host.calls.length == t.host.calls.length
      | .error _ => false
  | .error _ => false

private theorem exists_unheard : ∃ journal, ∃ s : Scene TcpFlow Credit, Run journal s ∧
    s.self.phase = .established ∧ s.out.room = none ∧ lastContent journal = some greetingSegment ∧
    (∃ step ∈ journal, ∃ sent, step.mark = .took greetingSegment sent ∧ sent.taken = false) ∧
    ∃ t, receive greeting s = .ok ((), t) ∧ t.host.calls.length = s.host.calls.length := by
  obtain ⟨journal, s, run, result⟩ := exists_run_of_enacts (p := unheard)
    (show enacts (devicePacket .syn 0x110 0 []) { streamCapacity := 16 }
      { sockets := [(0, { transfers := [.failure .wouldBlock] })] }
      [(⟨none⟩, .ofDevice .syn 0x110 0 []),
        (⟨none⟩, .ready { writable := true }),
        (⟨none⟩, .ofDevice .ack 0x111 0x1001 [])] _ = true by
      decide +kernel)
  unfold unheard at result
  split at result
  rotate_left
  · cases result
  next t performed =>
  simp only [Bool.and_eq_true, beq_iff_eq] at result
  obtain ⟨⟨⟨⟨⟨unwritten, empty⟩, phase⟩, taken⟩, refused⟩, again⟩ := result
  obtain ⟨steps, path, run', called⟩ :=
    (run.world s.registry ⟨some 0⟩ s.host).continues (.receive greeting) t performed
  have before : accepted journal = [] := by
    rw [← run.upstream.stream_eq, empty, written, unwritten]
    rfl
  have after := run'.upstream.stream_eq
  rw [taken] at after
  have nonempty : accepted steps ≠ [] := by
    intro nothing
    rw [accepted, List.flatMap_append, ← accepted, ← accepted, before, nothing] at after
    simp [greetingSegment] at after
  rw [Operation.stimulus, greeting_read] at path
  obtain ⟨last, step, mem, sent, took⟩ := path.lastContent_eq nonempty
  have untaken : sent.taken = false := by
    have offered : Event.offer sent.packet.bytes sent.taken ∈ calls steps :=
      List.mem_flatMap.2 ⟨step, mem, by simp [took, Mark.calls, Sent.call]⟩
    rw [called, Bool.not_eq_true', List.any_eq_false] at refused
    have kept := refused (.offer sent.packet.bytes sent.taken) (by simpa using offered)
    simpa [isHandedOver] using kept
  refine ⟨_, _, run'.world t.registry ⟨none⟩ t.host, phase, rfl, last,
    ⟨step, List.mem_append_right _ mem, sent, took, untaken⟩, ?_⟩
  split at again
  · next u performed' => exact ⟨u, performed', by simpa using again⟩
  · cases again

/-- The greeting whose acknowledgement was refused is sent again. -/
theorem retransmission_ignored_greeting : ∃ journal, ∃ s : Scene TcpFlow Credit, Run journal s ∧
    (∃ step ∈ journal, ∃ sent, step.mark = .took greetingSegment sent ∧ sent.taken = false) ∧
    ∃ host, (Operation.receive greeting).perform s = .ok ((), { s with host }) ∧
      s.host.After [] host := by
  obtain ⟨journal, s, run, phase, -, last, took, -⟩ := exists_unheard
  obtain ⟨host, performed, called, -⟩ := run.retransmission_ignored (by simp [phase]) last
    greeting_parsed greeting_read rfl rfl rfl
  exact ⟨journal, s, run, took, host, performed, called⟩

/-- A device that sends a segment again because its acknowledgement was refused is offered none, even
if there is room for it by now. -/
theorem not_retransmission_acknowledged : ¬∀ (journal : List Step) (s t : Scene TcpFlow Credit)
    (packet : Packet) (segment : Segment), Run journal s → s.self.phase ≠ .closed →
    lastContent journal = some segment → segment.payload ≠ [] →
    (∃ step ∈ journal, ∃ sent, step.mark = .took segment sent ∧ sent.taken = false) →
    s.out.room = none → Segment.ofPacket packet = .ok (some segment) →
    receive packet s = .ok ((), t) →
    ∃ event ∈ t.host.calls.take (t.host.calls.length - s.host.calls.length),
      event.isOffer = true := by
  intro acknowledged
  obtain ⟨journal, s, run, phase, room, last, took, t, performed, silent⟩ := exists_unheard
  obtain ⟨event, mem, -⟩ := acknowledged journal s t greeting greetingSegment run (by simp [phase])
    last (by simp [greetingSegment]) took room greeting_read performed
  rw [silent, Nat.sub_self] at mem
  cases mem

end TcpFlow

end TunnelRelay
