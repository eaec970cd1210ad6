import TunnelRelay.Proofs.Flow.Tcp.Segments

/-!
# The stream from the device

What the device sends reaches the socket unchanged: the bytes that the socket took and the bytes in
the ring together are the payload that was taken from the device, and the number that the flow
acknowledges counts it.
-/

namespace TunnelRelay

def Event.written : Event → Bytes
  | .write _ _ (.ok bytes) => bytes
  | _ => []

namespace TcpFlow

/-- The payload that was taken from the device. -/
def Mark.accepted : Mark → Bytes
  | took segment _ => segment.payload
  | _ => []

/-- The number of the request for a connection that was accepted. -/
def Mark.request? : Mark → Option UInt32
  | opened segment _ | reopened segment => some segment.sequence
  | _ => none

def written (steps : List Step) : Bytes := (calls steps).flatMap Event.written

def accepted (steps : List Step) : Bytes := steps.flatMap fun step => step.mark.accepted

def lastRequest (steps : List Step) : Option UInt32 :=
  (steps.filterMap fun step => step.mark.request?).getLast?

def ends (steps : List Step) : Nat := steps.countP fun step => step.mark.isEnd

/-- Nothing that was taken from the device is lost, doubled or out of order, and the number to
acknowledge counts it. -/
structure Upstream (journal : List Step) (f : TcpFlow) : Prop where
  stream_eq : written journal ++ f.ring.toList = accepted journal
  expected_eq : ∀ n, lastRequest journal = some n →
    f.expected = n + 1 + (accepted journal).length.toUInt32 + (ends journal).toUInt32

variable {σ : Type} [Outlet σ] {stimulus : Stimulus} {f g : TcpFlow} {r r' : Registry}
  {out out' : σ} {mark : Mark} {journal pre : List Step} {step : Step} {s : Scene TcpFlow σ}

private theorem written_concat (step : Step) :
    written (journal ++ [step]) =
      written journal ++ (step.mark.calls step.before).flatMap Event.written := by
  simp [written, calls]

theorem accepted_concat (step : Step) :
    accepted (journal ++ [step]) = accepted journal ++ step.mark.accepted := by
  simp [accepted]

theorem lastRequest_concat (step : Step) :
    lastRequest (journal ++ [step]) = step.mark.request?.or (lastRequest journal) := by
  unfold lastRequest
  cases h : step.mark.request? <;> simp [h]

theorem ends_concat (step : Step) :
    ends (journal ++ [step]) = ends journal + if step.mark.isEnd then 1 else 0 := by
  simp [ends, List.countP_singleton]

theorem written_pollerCall (r : Registration) (socket : SocketId) (wanted : Option Interest)
    (outcome : Outcome) : (r.pollerCall socket wanted outcome).written = [] := by
  unfold Registration.pollerCall
  split <;> rfl

structure Uplink (journal : List Step) (f : TcpFlow) : Prop where
  healthy : Healthy f
  upstream : Upstream journal f
  unasked : f.phase = .initial → lastRequest journal = none
  silent : f.phase.isConnecting = true → accepted journal = [] ∧ ends journal = 0

private theorem Uplink.of_connected (healthy : Healthy f) (upstream : Upstream journal f)
    (connected : f.phase.isConnecting = false) : Uplink journal f := by
  refine ⟨healthy, upstream, ?_, ?_⟩
  · intro initial
    rw [initial] at connected
    cases connected
  · intro connecting
    rw [connected] at connecting
    cases connecting

private theorem Uplink.aside (h : Uplink journal f)
    (move : Move stimulus ⟨f, r, out⟩ mark ⟨g, r', out'⟩)
    (written_eq : (mark.calls f).flatMap Event.written = []) (accepted_eq : mark.accepted = [])
    (request_eq : mark.request? = none) (isEnd_eq : mark.isEnd = false) (ring_eq : g.ring = f.ring)
    (expected_eq : f.phase ≠ .initial → g.expected = f.expected)
    (phase : g.phase.isConnecting = true → g.phase = f.phase) :
    Uplink (journal ++ [⟨f, mark, g⟩]) g := by
  obtain ⟨healthy, ⟨stream, expected⟩, unasked, silent⟩ := h
  refine ⟨move.healthy healthy, ⟨?_, ?_⟩, ?_, ?_⟩
  · rw [written_concat, accepted_concat, written_eq, accepted_eq, ring_eq, List.append_nil,
      List.append_nil, stream]
  · intro n hn
    rw [lastRequest_concat, request_eq, Option.none_or] at hn
    -- Only a flow that was asked for expects a number.
    have asked : f.phase ≠ .initial := by
      intro hp
      rw [unasked hp] at hn
      cases hn
    rw [accepted_concat, accepted_eq, ends_concat, isEnd_eq, expected_eq asked, expected n hn]
    simp
  · intro hp
    rw [lastRequest_concat, request_eq, Option.none_or]
    exact unasked ((phase (by rw [hp]; rfl)).symm.trans hp)
  · intro hp
    rw [accepted_concat, accepted_eq, ends_concat, isEnd_eq]
    simpa using silent (phase hp ▸ hp)

private theorem Uplink.request {segment : Segment} (h : Uplink journal f)
    (move : Move stimulus ⟨f, r, out⟩ mark ⟨g, r', out'⟩)
    (connecting : f.phase.isConnecting = true) (calls_eq : mark.calls f = [])
    (accepted_eq : mark.accepted = []) (request_eq : mark.request? = some segment.sequence)
    (isEnd_eq : mark.isEnd = false) (ring_eq : g.ring = f.ring)
    (expected_eq : g.expected = segment.sequence + 1) (phase : g.phase = .synSent) :
    Uplink (journal ++ [⟨f, mark, g⟩]) g := by
  obtain ⟨nothing, none⟩ := h.silent connecting
  have nothing' : accepted (journal ++ [⟨f, mark, g⟩]) = [] := by
    rw [accepted_concat, nothing, accepted_eq]
    rfl
  have none' : ends (journal ++ [⟨f, mark, g⟩]) = 0 := by
    rw [ends_concat, none, isEnd_eq]
    rfl
  refine ⟨move.healthy h.healthy, ⟨?_, ?_⟩, ?_, fun _ => ⟨nothing', none'⟩⟩
  · rw [written_concat, calls_eq, ring_eq, nothing', ← nothing, ← h.upstream.stream_eq]
    simp
  · intro n hn
    rw [lastRequest_concat, request_eq] at hn
    obtain rfl : segment.sequence = n := by simpa using hn
    rw [nothing', none', expected_eq]
    simp
  · intro initial
    rw [phase] at initial
    cases initial

private theorem Uplink.atEnd (h : Uplink journal f)
    (move : Move stimulus ⟨f, r, out⟩ mark ⟨g, r', out'⟩)
    (connected : g.phase.isConnecting = false)
    (written_eq : (mark.calls f).flatMap Event.written = []) (accepted_eq : mark.accepted = [])
    (request_eq : mark.request? = none) (isEnd_eq : mark.isEnd = true) (ring_eq : g.ring = f.ring)
    (expected_eq : g.expected = f.expected + 1) :
    Uplink (journal ++ [⟨f, mark, g⟩]) g := by
  obtain ⟨healthy, ⟨stream, expected⟩, -, -⟩ := h
  refine .of_connected (move.healthy healthy) ⟨?_, ?_⟩ connected
  · rw [written_concat, accepted_concat, written_eq, accepted_eq, ring_eq, List.append_nil,
      List.append_nil, stream]
  · intro n hn
    rw [lastRequest_concat, request_eq, Option.none_or] at hn
    rw [accepted_concat, accepted_eq, ends_concat, isEnd_eq, expected_eq, expected n hn,
      List.append_nil]
    simp [Nat.toUInt32, UInt32.ofNat_add, UInt32.add_assoc]

private theorem Uplink.took {segment : Segment} {sent : Sent} {ring : StreamRing}
    (h : Uplink journal f) (move : Move stimulus ⟨f, r, out⟩ (.took segment sent) ⟨g, r', out'⟩)
    (connected : g.phase.isConnecting = false)
    (pushed : f.ring.push segment.payload = .ok (segment.payload.length, ring))
    (ring_eq : g.ring = ring)
    (expected_eq : g.expected = f.expected + segment.payload.length.toUInt32) :
    Uplink (journal ++ [⟨f, .took segment sent, g⟩]) g := by
  refine .of_connected (move.healthy h.healthy) ⟨?_, ?_⟩ connected
  · rw [written_concat, accepted_concat, ring_eq, StreamRing.toList_push h.healthy.sound pushed,
      ← h.upstream.stream_eq]
    simp [Mark.calls, Sent.call, Event.written, Mark.accepted]
  · intro n hn
    rw [lastRequest_concat] at hn
    rw [expected_eq, accepted_concat, ends_concat, h.upstream.expected_eq n hn]
    simp [Mark.accepted, Mark.isEnd, Nat.toUInt32, UInt32.ofNat_add]
    ac_rfl

private theorem Uplink.wrote {offered : Nat} {bytes : Bytes} (h : Uplink journal f)
    (move : Move stimulus ⟨f, r, out⟩ (.wrote offered bytes) ⟨g, r', out'⟩)
    (connected : g.phase.isConnecting = false)
    (ring_eq : f.ring.toList = bytes ++ g.ring.toList) (expected_eq : g.expected = f.expected) :
    Uplink (journal ++ [⟨f, .wrote offered bytes, g⟩]) g := by
  refine .of_connected (move.healthy h.healthy) ⟨?_, ?_⟩ connected
  · rw [written_concat, accepted_concat, ← h.upstream.stream_eq, ring_eq]
    simp [Mark.calls, Event.written, Mark.accepted]
  · intro n hn
    rw [lastRequest_concat] at hn
    rw [expected_eq, accepted_concat, ends_concat, h.upstream.expected_eq n hn]
    simp [Mark.accepted, Mark.isEnd]

private theorem Ends.written_eq {ending : Ending} (h : Ends stimulus f out ending g out')
    (socket : SocketId) : (ending.calls socket).flatMap Event.written = [] := by
  cases h with
  | resetByDevice _ _ _ => rfl
  | confirmed _ _ _ _ _ => rfl
  | finished _ _ _ _ => rfl
  | refused _ _ =>
    simp only [Ending.calls, List.flatMap_singleton]
    exact written_pollerCall ..
  | disconnected _ => rfl
  | reset resets _ =>
    cases resets with
    | noRequest _ _ _ => rfl
    | request _ _ _ => rfl
    | connectError _ _ => rfl
    | noPeer _ _ => rfl
    | readError _ _ => rfl
    | writeError _ failed =>
      rcases failed with rfl | ⟨kind, rfl, -⟩ <;> rfl

private theorem Cancels.written_eq {registration : Registration} {call : Option Event}
    (h : f.Cancels registration call) : call.toList.flatMap Event.written = [] := by
  cases h <;> rfl

/-- The way to the end leaves ring and number alone, but for the end of the device's stream. -/
theorem Ends.same {ending : Ending} (h : Ends stimulus f out ending g out') :
    g.ring = f.ring ∧ (f.phase ≠ .initial →
      g.expected = f.expected + if (Mark.closed ending none).isEnd then 1 else 0) := by
  cases h with
  | resetByDevice _ _ _ => exact ⟨rfl, fun _ => (UInt32.add_zero _).symm⟩
  | confirmed _ _ _ _ _ => exact ⟨rfl, fun _ => (UInt32.add_zero _).symm⟩
  | finished _ _ _ emits =>
    obtain ⟨-, -, ring, -, -, expected, -⟩ := emits.same
    exact ⟨ring, fun _ => expected⟩
  | refused _ _ => exact ⟨rfl, fun _ => (UInt32.add_zero _).symm⟩
  | disconnected _ => exact ⟨rfl, fun _ => (UInt32.add_zero _).symm⟩
  | reset resets emits =>
    obtain ⟨-, -, ring, -, -, expected, -⟩ := emits.same
    cases resets with
    | noRequest _ phase _ => exact ⟨ring, fun asked => absurd phase asked⟩
    | request _ _ _ => exact ⟨ring, fun _ => expected.trans (UInt32.add_zero _).symm⟩
    | connectError _ _ => exact ⟨ring, fun _ => expected.trans (UInt32.add_zero _).symm⟩
    | noPeer _ _ => exact ⟨ring, fun _ => expected.trans (UInt32.add_zero _).symm⟩
    | readError reads _ =>
      obtain ⟨-, -, ring', -, -, expected', -⟩ := reads.same
      exact ⟨ring.trans ring', fun _ => (expected.trans expected').trans (UInt32.add_zero _).symm⟩
    | writeError _ _ => exact ⟨ring, fun _ => expected.trans (UInt32.add_zero _).symm⟩

private theorem Uplink.closed {ending : Ending} {call : Option Event} {registration : Registration}
    (h : Uplink journal f)
    (move : Move stimulus ⟨f, r, out⟩ (.closed ending call)
      ⟨{ g with phase := .closed, registration }, r', out'⟩)
    (ends : Ends stimulus f out ending g out') (cancels : g.Cancels registration call) :
    Uplink (journal ++ [⟨f, .closed ending call, { g with phase := .closed, registration }⟩])
      { g with phase := .closed, registration } := by
  obtain ⟨ring, expected⟩ := ends.same
  have written_eq : ((Mark.closed ending call).calls f).flatMap Event.written = [] := by
    rw [Mark.calls, List.flatMap_append, ends.written_eq, cancels.written_eq]
    rfl
  have same : (Mark.closed ending call).isEnd = (Mark.closed ending none).isEnd := by
    cases ending <;> rfl
  cases isEnd : (Mark.closed ending none).isEnd with
  | false =>
    rw [isEnd] at expected same
    exact h.aside move written_eq rfl rfl same ring
      (fun asked => (expected asked).trans (UInt32.add_zero _)) fun connecting => by
        cases connecting
  | true =>
    rw [isEnd] at expected same
    refine h.atEnd move rfl written_eq rfl rfl same ring (expected ?_)
    cases ends with
    | finished _ _ phase _ => simp [phase]
    | _ => cases isEnd

theorem Move.uplink (h : Uplink journal f)
    (move : Move stimulus ⟨f, r, out⟩ mark ⟨g, r', out'⟩) :
    Uplink (journal ++ [⟨f, mark, g⟩]) g := by
  have move' := move
  cases move with
  | opened _ phase _ _ => exact h.request move' (by rw [phase]; rfl) rfl rfl rfl rfl rfl rfl rfl
  | reopened _ phase _ =>
    exact h.request move' (by rw [phase]; rfl) rfl rfl rfl rfl rfl rfl phase
  | unconnected _ _ => exact h.aside move' rfl rfl rfl rfl rfl (fun _ => rfl) fun _ => rfl
  | connected _ emits =>
    obtain ⟨-, -, ring, phase, -, expected, -⟩ := emits.same
    refine h.aside move' rfl rfl rfl rfl ring (fun _ => expected) fun connecting => ?_
    cases connecting.symm.trans (congrArg Phase.isConnecting phase)
  | acknowledged _ inOrder _ _ =>
    refine h.aside move' rfl rfl rfl rfl rfl (fun _ => rfl) fun connecting => ?_
    rw [move'.stays_connected inOrder.connected] at connecting
    cases connecting
  | took _ inOrder _ _ _ pushed emits =>
    obtain ⟨-, -, ring, -, -, expected, -⟩ := emits.same
    exact h.took move' (move'.stays_connected inOrder.connected) pushed ring expected
  | ended _ atEnd _ emits =>
    obtain ⟨-, -, ring, -, -, expected, -⟩ := emits.same
    exact h.atEnd move' (move'.stays_connected atEnd.connected) rfl rfl rfl rfl ring expected
  | missed reads _ =>
    obtain ⟨-, -, ring, phase, -, expected, -⟩ := reads.same
    exact h.aside move' rfl rfl rfl rfl ring (fun _ => expected) fun _ => phase
  | delivered reads _ _ _ _ _ =>
    obtain ⟨-, -, ring, phase, -, expected, -⟩ := reads.same
    refine h.aside move' ?_ rfl rfl rfl ring (fun _ => expected) fun _ => phase
    simp only [Mark.calls]
    split <;> rfl
  | retried _ _ _ _ =>
    refine h.aside move' ?_ rfl rfl rfl rfl (fun _ => rfl) fun _ => rfl
    simp only [Mark.calls]
    split <;> rfl
  | exhausted reads emits =>
    obtain ⟨-, -, ring, -, -, expected, -⟩ := reads.same
    obtain ⟨-, -, ring', -, -, expected', -⟩ := emits.same
    refine h.aside move' rfl rfl rfl rfl (ring'.trans ring) (fun _ => expected'.trans expected) ?_
    intro connecting
    rw [move'.stays_connected reads.connected] at connecting
    cases connecting
  | wrote writes nonempty taken =>
    exact h.wrote move' writes.connected (writes.toList_drop h.healthy taken) rfl
  | blocked _ _ => exact h.aside move' rfl rfl rfl rfl rfl (fun _ => rfl) fun _ => rfl
  | widened _ _ _ emits =>
    obtain ⟨-, -, ring, phase, -, expected, -⟩ := emits.same
    exact h.aside move' rfl rfl rfl rfl ring (fun _ => expected) fun _ => phase
  | shut _ _ _ _ _ => exact h.aside move' rfl rfl rfl rfl rfl (fun _ => rfl) fun _ => rfl
  | told _ _ =>
    refine h.aside move' ?_ rfl rfl rfl rfl (fun _ => rfl) fun _ => rfl
    simp only [Mark.calls, List.flatMap_singleton]
    exact written_pollerCall ..
  | closed _ ends cancels => exact h.closed move' ends cancels

theorem Fresh.uplink (hf : Fresh f) : Uplink [] f :=
  ⟨hf.healthy, ⟨hf.empty, fun _ asked => by cases asked⟩, fun _ => rfl, fun _ => ⟨rfl, rfl⟩⟩

theorem Run.upstream (run : Run journal s) : Upstream journal s.self :=
  (run.invariant (I := Uplink) Fresh.uplink Move.uplink).upstream

/-- A device has finished sending once the end of its stream was noted. -/
theorem Move.deviceClosed_eq (move : Move stimulus ⟨f, r, out⟩ mark ⟨g, r', out'⟩) :
    g.deviceClosed = (f.deviceClosed || mark.isEnd) := by
  cases move with
  | ended _ _ _ emits => exact emits.same.deviceClosed_eq.trans (Bool.or_true _).symm
  | connected _ emits => exact emits.same.deviceClosed_eq.trans (Bool.or_false _).symm
  | took _ _ _ _ _ _ emits => exact emits.same.deviceClosed_eq.trans (Bool.or_false _).symm
  | missed reads _ => exact reads.same.deviceClosed_eq.trans (Bool.or_false _).symm
  | delivered reads _ _ _ _ _ => exact reads.same.deviceClosed_eq.trans (Bool.or_false _).symm
  | exhausted reads emits =>
    have same := emits.same.deviceClosed_eq.trans reads.same.deviceClosed_eq
    exact same.trans (Bool.or_false _).symm
  | widened _ _ _ emits => exact emits.same.deviceClosed_eq.trans (Bool.or_false _).symm
  | closed _ ends _ =>
    cases ends with
    | finished _ _ _ emits => exact emits.same.deviceClosed_eq.trans (Bool.or_true _).symm
    | reset resets emits =>
      refine emits.same.deviceClosed_eq.trans (Eq.trans ?_ (Bool.or_false _).symm)
      cases resets with
      | readError reads _ => exact reads.same.deviceClosed_eq
      | _ => rfl
    | _ => exact (Bool.or_false _).symm
  | _ => exact (Bool.or_false _).symm

theorem Run.deviceClosed_eq (run : Run journal s) :
    s.self.deviceClosed = decide (0 < ends journal) := by
  refine run.invariant (I := fun journal f => f.deviceClosed = decide (0 < ends journal)) ?_ ?_
  · intro f fresh
    rw [fresh.consistent.deviceClosed_eq, fresh.phase_eq]
    rfl
  · intro stimulus journal f g r r' out out' mark hf move
    rw [move.deviceClosed_eq, hf, ends_concat]
    cases mark.isEnd <;> simp

theorem Run.ends_eq_zero (run : Run journal s) (goesOn : s.self.deviceClosed = false) :
    ends journal = 0 := by
  simpa [run.deviceClosed_eq] using goesOn

/-- In every run what the device sends reaches the socket whole and in order. Payload is taken only
from a segment that comes next, all of it, and what the flow tells the device acknowledges exactly
what was taken. -/
theorem Run.upstream_intact (run : Run journal s) :
    Continues journal s ∧ Upstream journal s.self ∧ ∀ pre step, pre ++ [step] <+: journal →
      Upstream pre step.before ∧ Upstream (pre ++ [step]) step.after ∧
      (∀ segment sent, step.mark = .took segment sent →
        segment.flags.has .syn = false ∧ segment.flags.has .rst = false ∧
          segment.sequence = step.before.expected ∧
          step.after.ring.toList = step.before.ring.toList ++ segment.payload) ∧
      ∀ sent, step.mark.built? = some sent → ∃ segment,
        Segment.ofPacket sent.packet = .ok (some segment) ∧
          segment.acknowledgement = step.after.expected := by
  refine ⟨run.continues, run.upstream, ?_⟩
  rintro pre ⟨f, mark, g⟩ h
  obtain ⟨before, after, stimulus, r, r', out, out', move⟩ :=
    run.invariant_step (I := Uplink) Fresh.uplink Move.uplink h
  refine ⟨before.upstream, after.upstream, ?_, ?_⟩
  · rintro segment sent ⟨⟩
    cases move with
    | took _ inOrder _ _ _ pushed emits =>
      refine ⟨inOrder.not_syn, inOrder.not_rst, inOrder.sequence_eq, ?_⟩
      rw [emits.same.ring_eq, StreamRing.toList_push before.healthy.sound pushed, List.take_length]
  · intro sent built
    obtain ⟨segment, wording, acknowledgement, -⟩ := move.built_eq before.healthy built
    exact ⟨segment, wording, acknowledgement⟩

/-- A greeting of which the socket takes two bytes before it is full. -/
theorem upstream_intact_greeting : ∃ journal, ∃ s : Scene TcpFlow Credit, Run journal s ∧
    written journal = [104, 101] ∧ accepted journal = [104, 101, 108, 108, 111] ∧
      Upstream journal s.self := by
  obtain ⟨journal, s, run, result⟩ := exists_run_of_enacts
    (p := fun events t => events.flatMap Event.written == [104, 101] &&
      t.self.ring.toList == [108, 108, 111])
    (show enacts (devicePacket .syn 0x110 0 []) { streamCapacity := 16 }
      { sockets := [(0, { transfers := [.upTo 2, .failure .wouldBlock] })] }
      [(⟨none⟩, .ofDevice .syn 0x110 0 []),
        (⟨none⟩, .ready { writable := true }),
        (⟨none⟩, .ofDevice .ack 0x111 0x1001 []),
        (⟨none⟩, .ofDevice (.psh ∪ .ack) 0x111 0x1001 [104, 101, 108, 108, 111])] _ = true by
      decide +kernel)
  simp only [Bool.and_eq_true, beq_iff_eq] at result
  have upstream := run.upstream_intact.2.1
  refine ⟨journal, s, run, result.1, ?_, upstream⟩
  rw [← upstream.stream_eq, result.2, show written journal = _ from result.1]
  rfl

end TcpFlow

end TunnelRelay
