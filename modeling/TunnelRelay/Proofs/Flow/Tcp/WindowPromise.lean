import TunnelRelay.Proofs.Flow.Tcp.Conversation
import TunnelRelay.Proofs.Flow.Tcp.Faultless

/-!
# The window that a flow grants

With every packet a flow promises room: the number that it acknowledges and the window that it grants
make an edge in the device's stream, up to which the device may send. Positions in the stream count
from the device's request on and do not wrap as numbers do. The edge never moves back, and what ends
before it is never turned away for lack of room.
-/

namespace TunnelRelay

open Act

namespace TcpFlow

/-- How far the flow has come in the device's stream, with the request at 0 and the first byte at 1. -/
def position (steps : List Step) : Nat := 1 + (accepted steps).length + ends steps

/-- The last of the moves built a packet by which the device may send up to `edge`. -/
def Promises (steps : List Step) (edge : Nat) : Prop :=
  ∃ step sent segment number, steps.getLast? = some step ∧ step.mark.built? = some sent ∧
    Segment.ofPacket sent.packet = .ok (some segment) ∧ lastRequest steps = some number ∧
    segment.acknowledgement = number + (position steps).toUInt32 ∧
    edge = position steps + segment.window.toNat

variable {σ : Type} [Outlet σ] {stimulus : Stimulus} {f g : TcpFlow} {r r' : Registry}
  {out out' : σ} {mark : Mark} {journal pre steps : List Step} {step : Step} {edge : Nat}
  {s t : Scene TcpFlow σ}

theorem position_concat (step : Step) :
    position (journal ++ [step]) =
      position journal + step.mark.accepted.length + if step.mark.isEnd then 1 else 0 := by
  unfold position
  rw [accepted_concat, ends_concat, List.length_append]
  omega

/-- A ring changes only where payload is taken and where some is written. -/
theorem Move.ring_cases (move : Move stimulus ⟨f, r, out⟩ mark ⟨g, r', out'⟩) :
    (g.ring = f.ring ∧ mark.accepted = []) ∨
    (∃ segment sent, mark = .took segment sent ∧
      f.ring.push segment.payload = .ok (segment.payload.length, g.ring)) ∨
    ∃ front bytes, mark = .wrote front.length bytes ∧ f.Writes front ∧
      bytes = front.take bytes.length ∧ g.ring = f.ring.drop bytes.length := by
  cases move with
  | took _ _ _ _ _ pushed emits => exact .inr (.inl ⟨_, _, rfl, emits.same.ring_eq ▸ pushed⟩)
  | wrote writes _ taken => exact .inr (.inr ⟨_, _, rfl, writes, taken, rfl⟩)
  | connected _ emits => exact .inl ⟨emits.same.ring_eq, rfl⟩
  | ended _ _ _ emits => exact .inl ⟨emits.same.ring_eq, rfl⟩
  | missed reads _ => exact .inl ⟨reads.same.ring_eq, rfl⟩
  | delivered reads _ _ _ _ _ => exact .inl ⟨reads.same.ring_eq, rfl⟩
  | exhausted reads emits => exact .inl ⟨emits.same.ring_eq.trans reads.same.ring_eq, rfl⟩
  | widened _ _ _ emits => exact .inl ⟨emits.same.ring_eq, rfl⟩
  | closed _ ends _ => exact .inl ⟨ends.same.1, rfl⟩
  | _ => exact .inl ⟨rfl, rfl⟩

/-- What is taken is all that the room in the ring shrinks by. -/
theorem Move.remaining_le (hf : Healthy f) (move : Move stimulus ⟨f, r, out⟩ mark ⟨g, r', out'⟩) :
    f.ring.remaining ≤ mark.accepted.length + g.ring.remaining := by
  have before := hf.sound.length_add_remaining
  have after := (move.healthy hf).sound.length_add_remaining
  obtain ⟨same, nothing⟩ | ⟨segment, sent, rfl, pushed⟩ | ⟨front, bytes, rfl, writes, taken, same⟩ :=
    move.ring_cases
  · rw [same]
    exact Nat.le_add_left _ _
  · have capacity := StreamRing.capacity_push pushed
    have length := StreamRing.length_push hf.sound pushed
    change _ ≤ segment.payload.length + _
    omega
  · have content := congrArg List.length (writes.toList_drop hf taken)
    rw [← same, List.length_append, StreamRing.length_toList, StreamRing.length_toList] at content
    have capacity : g.ring.capacity = f.ring.capacity := by rw [same]; rfl
    change _ ≤ 0 + _
    omega

/-- Wherever the edge lies, no move takes it back. -/
theorem Move.edge_le (hf : Healthy f) (move : Move stimulus ⟨f, r, out⟩ mark ⟨g, r', out'⟩) :
    position journal + f.windowToGrant ≤
      position (journal ++ [⟨f, mark, g⟩]) + g.windowToGrant := by
  have room := move.remaining_le hf
  rw [position_concat]
  dsimp only
  unfold windowToGrant
  omega

/-- A packet promises the edge where it lies after the move. -/
theorem Move.edge_eq (hf : Healthy f) (move : Move stimulus ⟨f, r, out⟩ mark ⟨g, r', out'⟩)
    (promise : Promises (journal ++ [⟨f, mark, g⟩]) edge) :
    edge = position (journal ++ [⟨f, mark, g⟩]) + g.windowToGrant := by
  obtain ⟨step, sent, segment, number, last, built, wording, -, -, rfl⟩ := promise
  rw [List.getLast?_concat] at last
  cases last
  obtain ⟨segment', wording', -, window, -⟩ := move.built_eq hf built
  cases wording.symm.trans wording'
  have small : g.windowToGrant < 2 ^ 16 := by unfold windowToGrant; omega
  rw [window, show g.windowToGrant.toUInt16.toNat = g.windowToGrant from Nat.mod_eq_of_lt small]

/-- What was promised has been kept so far. -/
structure Promised (journal : List Step) (f : TcpFlow) : Prop where
  healthy : Healthy f
  edge_le : ∀ steps edge, steps <+: journal → Promises steps edge →
    edge ≤ position journal + f.windowToGrant

theorem Fresh.promised (hf : Fresh f) : Promised [] f where
  healthy := hf.healthy
  edge_le steps edge h promise := by
    obtain ⟨step, _, _, _, last, -⟩ := promise
    rw [List.prefix_nil.1 h] at last
    cases last

theorem Move.promised (h : Promised journal f)
    (move : Move stimulus ⟨f, r, out⟩ mark ⟨g, r', out'⟩) :
    Promised (journal ++ [⟨f, mark, g⟩]) g := by
  refine ⟨move.healthy h.healthy, fun steps edge hs promise => ?_⟩
  rcases List.prefix_concat_iff.1 hs with rfl | earlier
  · exact Nat.le_of_eq (move.edge_eq h.healthy promise)
  · exact Nat.le_trans (h.edge_le steps edge earlier promise) (move.edge_le h.healthy)

theorem Run.promised (run : Run journal s) : Promised journal s.self :=
  run.invariant Fresh.promised Move.promised

/-- Once the device has asked for a connection, every packet makes a promise. -/
theorem Run.exists_promise {sent : Sent} (run : Run journal s) (h : pre ++ [step] <+: journal)
    (asked : step.before.phase ≠ .initial) (built : step.mark.built? = some sent) :
    ∃ edge, Promises (pre ++ [step]) edge := by
  obtain ⟨-, after, -⟩ := run.invariant_step (I := Uplink) Fresh.uplink Move.uplink h
  obtain ⟨speaking, -, stimulus, r, r', out, out', move⟩ :=
    run.invariant_step (I := Speaking) Fresh.speaking Move.speaking h
  obtain ⟨segment, wording, acknowledgement, -⟩ := move.built_eq speaking.healthy built
  have requested : ∃ number, lastRequest pre = some number := by
    cases connecting : step.before.phase.isConnecting with
    | false =>
      obtain ⟨_, number, -, found, -⟩ := speaking.talking connecting move.isOpen
      exact ⟨number, found⟩
    | true =>
      have sent : step.before.phase = .synSent := by
        cases hp : step.before.phase <;> simp_all [Phase.isConnecting]
      obtain ⟨-, number, found, -⟩ := speaking.asked sent
      exact ⟨number, found⟩
  obtain ⟨number, found⟩ : ∃ number, lastRequest (pre ++ [step]) = some number := by
    rw [lastRequest_concat]
    obtain ⟨number, found⟩ := requested
    cases step.mark.request? with
    | none => exact ⟨number, found⟩
    | some other => exact ⟨other, rfl⟩
  refine ⟨_, step, sent, segment, number, List.getLast?_concat, built, wording, found, ?_, rfl⟩
  rw [acknowledgement, after.upstream.expected_eq number found]
  simp only [position, Nat.toUInt32, UInt32.ofNat_add]
  ac_rfl

/-- A later packet promises at least as much. -/
theorem Run.edge_mono {earlier later : List Step} {edge edge' : Nat} (run : Run journal s)
    (h : earlier <+: later) (h' : later <+: journal) (promise : Promises earlier edge)
    (promise' : Promises later edge') : edge ≤ edge' := by
  have ⟨step, _, _, _, last, _⟩ := promise'
  obtain ⟨pre, rfl⟩ := List.getLast?_eq_some_iff.1 last
  obtain ⟨before, after, stimulus, r, r', out, out', move⟩ :=
    run.invariant_step (I := Promised) Fresh.promised Move.promised h'
  rw [move.edge_eq before.healthy promise']
  exact after.edge_le earlier edge h promise

/-- There is room for what ends before an edge. -/
theorem Run.length_le_remaining {n : Nat} (run : Run journal s) (h : steps <+: journal)
    (promise : Promises steps edge) (before : position journal + n ≤ edge) :
    n ≤ s.self.ring.remaining := by
  have kept := run.promised.edge_le steps edge h promise
  unfold windowToGrant at kept
  omega

theorem Move.capacity_eq (move : Move stimulus ⟨f, r, out⟩ mark ⟨g, r', out'⟩) :
    g.ring.capacity = f.ring.capacity := by
  obtain ⟨same, -⟩ | ⟨segment, sent, -, pushed⟩ | ⟨front, bytes, -, -, -, same⟩ := move.ring_cases
  · rw [same]
  · exact StreamRing.capacity_push pushed
  · rw [same]
    rfl

/-- Whatever else it promises, every packet promises as much as the ring or the field can hold. -/
theorem Run.lt_edge (run : Run journal s) (h : steps <+: journal) (promise : Promises steps edge) :
    min s.self.ring.capacity 0xffff < edge := by
  have ⟨step, _, _, _, last, _⟩ := promise
  obtain ⟨pre, rfl⟩ := List.getLast?_eq_some_iff.1 last
  obtain ⟨before, after, stimulus, r, r', out, out', move⟩ :=
    run.invariant_step (I := Promised) Fresh.promised Move.promised h
  obtain ⟨-, uplink, -⟩ := run.invariant_step (I := Uplink) Fresh.uplink Move.uplink h
  have capacity : step.after.ring.capacity = s.self.ring.capacity := by
    refine run.invariant (I := fun journal f => ∀ step ∈ journal,
      step.after.ring.capacity = f.ring.capacity) (fun _ _ hs => absurd hs List.not_mem_nil) ?_ step
      (h.subset (List.mem_append_right _ List.mem_cons_self))
    intro stimulus journal f g r r' out out' mark hf move step hs
    rcases List.mem_append.1 hs with hs | hs
    · exact (hf step hs).trans move.capacity_eq.symm
    · rw [List.mem_singleton.1 hs]
  have content := congrArg List.length uplink.upstream.stream_eq
  have room := after.healthy.sound.length_add_remaining
  have edge_eq : edge = position (pre ++ [step]) + step.after.windowToGrant :=
    move.edge_eq before.healthy promise
  rw [List.length_append, StreamRing.length_toList] at content
  unfold position windowToGrant at edge_eq
  omega

/-- All that a flow can build at first is the reset that ends it. -/
theorem Move.closed_of_initial (move : Move stimulus ⟨f, r, out⟩ mark ⟨g, r', out'⟩)
    (initial : f.phase = .initial) (built : mark.built?.isSome = true) : g.phase = .closed := by
  have connecting : f.phase.isConnecting = true := by rw [initial]; rfl
  cases move with
  | connected phase _ => cases initial.symm.trans phase
  | took _ inOrder _ _ _ _ _ => cases connecting.symm.trans inOrder.connected
  | ended _ atEnd _ _ => cases connecting.symm.trans atEnd.connected
  | delivered reads _ _ _ _ _ => cases connecting.symm.trans reads.connected
  | exhausted reads _ => cases connecting.symm.trans reads.connected
  | widened connected _ _ _ => cases connecting.symm.trans connected
  | closed _ _ _ => rfl
  | _ => cases built

/-- A connected flow has answered the device, and promised something by that. -/
theorem Run.promises_of_connected (run : Run journal s)
    (connected : s.self.phase.isConnecting = false) (isOpen : s.self.phase ≠ .closed) :
    ∃ steps edge, steps <+: journal ∧ Promises steps edge := by
  obtain ⟨_, _, -, -, conversation⟩ := run.speaking.talking connected isOpen
  obtain ⟨step, said⟩ := List.exists_mem_of_ne_nil _ conversation.ne_nil
  obtain ⟨listed, built⟩ := List.mem_filter.1 said
  obtain ⟨sent, built⟩ := Option.isSome_iff_exists.1 built
  obtain ⟨pre, post, split⟩ := List.append_of_mem listed
  have h : pre ++ [step] <+: journal := ⟨post, by simp [split]⟩
  have asked : step.before.phase ≠ .initial := by
    intro initial
    obtain ⟨-, -, _, _, _, _, _, move⟩ :=
      run.invariant_step (I := Speaking) Fresh.speaking Move.speaking h
    have closed := move.closed_of_initial initial (by rw [built]; rfl)
    exact isOpen ((run.eq_of_closed h closed).2 ▸ closed)
  obtain ⟨edge, promise⟩ := run.exists_promise h asked built
  exact ⟨_, edge, h, promise⟩

theorem Run.closed_of_failsToRead (run : Run (journal ++ steps) t) (fails : FailsToRead steps) :
    t.self.phase = .closed := by
  obtain ⟨step, listed, size, kind, sent, call, failed⟩ := fails
  obtain ⟨first, second, rfl⟩ := List.append_of_mem listed
  have h : (journal ++ first) ++ [step] <+: journal ++ (first ++ step :: second) :=
    ⟨second, by simp⟩
  obtain ⟨-, -, _, _, _, _, _, move⟩ :=
    run.invariant_step (I := Promised) Fresh.promised Move.promised h
  have closed : step.after.phase = .closed := by
    obtain ⟨f, mark, g⟩ := step
    cases failed
    cases move with
    | closed _ _ _ => rfl
  exact (run.eq_of_closed h closed).2 ▸ closed

/-- In every run the edge up to which the device may send moves on only, from one packet to the next,
whether the packets were taken or not. The next payload of the device is taken if it ends before any
edge that was promised. Only a socket that turns out to have failed, when the segment's confirmation
has it read, prevents that. -/
theorem Run.window_promise_kept (run : Run journal s) :
    Continues journal s ∧
    (∀ pre step sent, pre ++ [step] <+: journal → step.before.phase ≠ .initial →
      step.mark.built? = some sent → ∃ edge, Promises (pre ++ [step]) edge) ∧
    (∀ earlier later edge edge', earlier <+: later → later <+: journal →
      Promises earlier edge → Promises later edge' → edge ≤ edge') ∧
    (∀ steps edge packet segment, steps <+: journal → Promises steps edge →
      Segment.ofPacket packet = .ok (some segment) → s.self.phase.takesPayload = true →
      segment.flags.has .syn = false → segment.flags.has .rst = false →
      segment.sequence = s.self.expected → position journal + segment.payload.length ≤ edge →
      segment.payload.length ≤ s.self.ring.remaining ∧
      ∀ t, receive packet s = .ok ((), t) → ∃ more, Path (.segment segment) s more t ∧
        Run (journal ++ more) t ∧
        (segment.payload = [] ∨ Takes segment more ∨
          segment.flags.has .ack = true ∧ FailsToRead more ∧ t.self.phase = .closed)) ∧
    ∀ (journal : List Step) (s : Scene TcpFlow Outbox), Run journal s → s.out.ring.Sound →
      ∀ bytes packet, Packet.ofBytes bytes = .ok packet → ∃ t, receive packet s = .ok ((), t) := by
  refine ⟨run.continues, fun pre step sent => run.exists_promise,
    fun earlier later edge edge' => run.edge_mono, ?_,
    fun journal s run sound bytes packet => run.receive_isOk sound⟩
  intro steps edge packet segment h promise found phase not_syn not_rst sequence before
  have fits := run.length_le_remaining h promise before
  refine ⟨fits, fun t received => ?_⟩
  have connected : s.self.phase.isConnecting = false ∧ s.self.phase ≠ .closed := by
    cases hp : s.self.phase <;> simp_all [Phase.takesPayload, Phase.isConnecting]
  have inOrder : s.self.InOrder segment := ⟨connected.1, connected.2, not_syn, not_rst, sequence⟩
  obtain ⟨more, path, taken⟩ : ∃ more, Path (.segment segment) s more t ∧
      (segment.payload ≠ [] →
        Takes segment more ∨ segment.flags.has .ack = true ∧ FailsToRead more) := by
    refine (?_ : Ensures (receive packet) s fun _ t => ∃ more, Path (.segment segment) s more t ∧
      (segment.payload ≠ [] →
        Takes segment more ∨ segment.flags.has .ack = true ∧ FailsToRead more)) () t received
    refine ensures_receive run.consistent fun found' hf more u course takes => ?_
    obtain rfl : found' = some segment := Except.ok.inj (hf.symm.trans found)
    exact ⟨more, course.path, fun nonempty => takes segment rfl inOrder ⟨phase, nonempty, fits⟩⟩
  have run' := run.act_receive found received path
  refine ⟨more, path, run', ?_⟩
  by_cases nonempty : segment.payload = []
  · exact .inl nonempty
  · refine .inr ((taken nonempty).imp_right ?_)
    rintro ⟨ack, fails⟩
    exact ⟨ack, fails, run'.closed_of_failsToRead fails⟩

/-- What the device sends first, in a packet with these flags. -/
def hello (flags : TcpFlags) : Packet where
  bytes := devicePacket flags 0x111 0x1001 [104, 101, 108, 108, 111]
  transport := some (.tcp, 20)

def helloSegment (flags : TcpFlags) : Segment where
  flags := flags
  sequence := 0x111
  acknowledgement := 0x1001
  window := 0x1000
  payload := [104, 101, 108, 108, 111]

/-- A flow that has promised more room than that and taken nothing yet is given these bytes. -/
structure Greeted (flags : TcpFlags) (journal : List Step) (s t : Scene TcpFlow Credit)
    (steps : List Step) (edge : Nat) : Prop where
  run : Run journal s
  phase_eq : s.self.phase = .established
  nothing : accepted journal = []
  listed : steps <+: journal
  promise : Promises steps edge
  parsed : Packet.ofBytes (hello flags).bytes = .ok (hello flags)
  segment_eq : Segment.ofPacket (hello flags) = .ok (some (helloSegment flags))
  sequence_eq : (helloSegment flags).sequence = s.self.expected
  before : position journal + (helloSegment flags).payload.length ≤ edge
  received : receive (hello flags) s = .ok ((), t)

/-- Whether a connected flow takes its first bytes in such a way. -/
def greets (flags : TcpFlags) (p : Scene TcpFlow Credit → Bool) (events : List Event)
    (s : Scene TcpFlow Credit) : Bool :=
  s.self.phase == .established && s.self.expected == 0x111 && s.self.ring.capacity == 16 &&
    s.self.ring.toList == [] && events.flatMap Event.written == [] &&
    match receive (hello flags) s with
    | .ok ((), t) => p t
    | .error _ => false

theorem exists_greeted (flags : TcpFlags) (arrivals : List Arrival)
    (p : Scene TcpFlow Credit → Bool)
    (parsed : Packet.ofBytes (hello flags).bytes = .ok (hello flags))
    (segment_eq : Segment.ofPacket (hello flags) = .ok (some (helloSegment flags)))
    (h : enacts (devicePacket .syn 0x110 0 []) { streamCapacity := 16 }
      { sockets := [(0, { arrivals })] }
      [(⟨none⟩, .ofDevice .syn 0x110 0 []),
        (⟨none⟩, .ready { writable := true }),
        (⟨none⟩, .ofDevice .ack 0x111 0x1001 [])] (greets flags p) = true) :
    ∃ journal s t steps edge, Greeted flags journal s t steps edge ∧ p t = true := by
  obtain ⟨journal, s, run, result⟩ := exists_run_of_enacts h
  simp only [greets, Bool.and_eq_true, beq_iff_eq] at result
  obtain ⟨⟨⟨⟨⟨phase, expected⟩, capacity⟩, ring⟩, written_eq⟩, handled⟩ := result
  have nothing : accepted journal = [] := by
    rw [← run.upstream.stream_eq, ring]
    exact (List.append_nil _).trans written_eq
  have consistent := run.consistent (by simp [phase])
  have goesOn : s.self.deviceClosed = false := by
    rw [consistent.deviceClosed_eq, phase]
    rfl
  obtain ⟨steps, edge, listed, promise⟩ :=
    run.promises_of_connected (by rw [phase]; rfl) (by simp [phase])
  have far := run.lt_edge listed promise
  rw [capacity] at far
  have before : position journal + (helloSegment flags).payload.length ≤ edge := by
    rw [position, nothing, run.ends_eq_zero goesOn]
    change 6 ≤ edge
    omega
  split at handled
  · next t received =>
    exact ⟨journal, s, t, steps, edge, ⟨run, phase, nothing, listed, promise, parsed, segment_eq,
      expected.symm, before, received⟩, handled⟩
  · cases handled

/-- The first bytes are taken. -/
theorem window_promise_kept_hello : ∃ journal, ∃ s t : Scene TcpFlow Credit, ∃ steps edge more,
    Greeted (.psh ∪ .ack) journal s t steps edge ∧
      Path (.segment (helloSegment (.psh ∪ .ack))) s more t ∧
      Takes (helloSegment (.psh ∪ .ack)) more := by
  obtain ⟨journal, s, t, steps, edge, greeted, isOpen⟩ :=
    exists_greeted (.psh ∪ .ack) [] (fun t => t.self.phase != .closed) rfl rfl (by decide +kernel)
  obtain ⟨-, kept⟩ := greeted.run.window_promise_kept.2.2.2.1 steps edge _ _ greeted.listed
    greeted.promise greeted.segment_eq (by rw [greeted.phase_eq]; rfl) (by decide) (by decide)
    greeted.sequence_eq greeted.before
  obtain ⟨more, path, -, empty | takes | ⟨-, -, closed⟩⟩ := kept t greeted.received
  · cases empty
  · exact ⟨journal, s, t, steps, edge, more, greeted, path, takes⟩
  · simp [closed] at isOpen

/-- First bytes with these flags are lost, for all that room was promised for them. -/
def Lost (flags : TcpFlags) : Prop :=
  ∃ journal s t steps edge, Greeted flags journal s t steps edge ∧
    ∀ more, Path (.segment (helloSegment flags)) s more t → ¬Takes (helloSegment flags) more

/-- Where nothing was written and the ring is empty, nothing was taken. -/
theorem lost_of_enacts (flags : TcpFlags) (arrivals : List Arrival)
    (parsed : Packet.ofBytes (hello flags).bytes = .ok (hello flags))
    (segment_eq : Segment.ofPacket (hello flags) = .ok (some (helloSegment flags)))
    (h : enacts (devicePacket .syn 0x110 0 []) { streamCapacity := 16 }
      { sockets := [(0, { arrivals })] }
      [(⟨none⟩, .ofDevice .syn 0x110 0 []),
        (⟨none⟩, .ready { writable := true }),
        (⟨none⟩, .ofDevice .ack 0x111 0x1001 [])]
      (greets flags fun t => t.self.ring.toList == [] &&
        t.host.calls.flatMap Event.written == []) = true) : Lost flags := by
  obtain ⟨journal, s, t, steps, edge, greeted, nothing⟩ :=
    exists_greeted flags arrivals _ parsed segment_eq h
  refine ⟨journal, s, t, steps, edge, greeted, fun more path takes => ?_⟩
  simp only [Bool.and_eq_true, beq_iff_eq] at nothing
  have run := greeted.run.act_receive segment_eq greeted.received path
  have earlier : written journal = [] := by
    have stream := greeted.run.upstream.stream_eq
    rw [greeted.nothing] at stream
    exact (List.append_eq_nil_iff.1 stream).1
  have later : written more = [] := by
    have silent := List.flatMap_eq_nil_iff.1 nothing.2
    refine List.flatMap_eq_nil_iff.2 fun event called => silent event ?_
    rw [path.after.calls_eq]
    exact List.mem_append_left _ (List.mem_reverse.2 called)
  have none : accepted (journal ++ more) = [] := by
    rw [← run.upstream.stream_eq, nothing.1, List.append_nil, written, calls, List.flatMap_append,
      List.flatMap_append]
    exact List.append_eq_nil_iff.2 ⟨earlier, later⟩
  obtain ⟨step, listed, sent, took⟩ := takes
  have empty := List.flatMap_eq_nil_iff.1 none step (List.mem_append_right _ listed)
  rw [took] at empty
  cases empty

/-- A promise of room does not help a segment that resets the connection, one that asks for another,
or one whose confirmation has a socket read that has failed. -/
theorem promised_hello_lost : Lost (.psh ∪ .ack) ∧ Lost .rst ∧ Lost .syn := by
  refine ⟨lost_of_enacts _ [.failure .wouldBlock, .failure .connectionReset] rfl rfl ?_,
    lost_of_enacts _ [] rfl rfl ?_, lost_of_enacts _ [] rfl rfl ?_⟩ <;> decide +kernel

end TcpFlow

end TunnelRelay
