import TunnelRelay.Proofs.Flow.Tcp.Consistent
import TunnelRelay.Proofs.Flow.Tcp.Transfer

/-!
# Reactions are sequences of moves

Every reaction of a TCP flow, taken apart into moves. Where a reaction goes on after it moved bytes,
what the device has to send next is still the same.
-/

namespace TunnelRelay

open Act

/-- The number behind a segment that is not part of a stream yet: a request takes one number. -/
def Segment.opening (segment : Segment) : UInt32 :=
  segment.sequence + if segment.flags.has .syn then 1 else segment.payload.length.toUInt32

namespace TcpFlow

variable {σ : Type} [Outlet σ] {stimulus : Stimulus} {s t : Scene TcpFlow σ}
  {steps : List Step} {Q : Unit → Scene TcpFlow σ → Prop}

theorem Move.of_other {a b : Stage σ} {mark : Mark} (h : Move .other a mark b) :
    Move stimulus a mark b := by
  cases h with
  | opened received _ _ _ => cases received
  | reopened received _ _ => cases received
  | unconnected phase waits => exact .unconnected phase waits
  | connected phase emits => exact .connected phase emits
  | acknowledged received _ _ _ => cases received
  | took received _ _ _ _ _ _ => cases received
  | ended received _ _ _ => cases received
  | missed reads waits => exact .missed reads waits
  | delivered reads nonempty fits committed completed offered =>
    exact .delivered reads nonempty fits committed completed offered
  | retried isOpen pending latest offered => exact .retried isOpen pending latest offered
  | exhausted reads emits => exact .exhausted reads emits
  | wrote writes nonempty taken => exact .wrote writes nonempty taken
  | blocked writes waits => exact .blocked writes waits
  | widened connected isOpen unaware emits => exact .widened connected isOpen unaware emits
  | shut isOpen deviceClosed writeShut drained outcome =>
    exact .shut isOpen deviceClosed writeShut drained outcome
  | told isOpen changed => exact .told isOpen changed
  | closed isOpen ends cancels =>
    refine .closed isOpen ?_ cancels
    cases ends with
    | resetByDevice received _ _ => cases received
    | confirmed received _ _ _ _ => cases received
    | finished received _ _ _ => cases received
    | refused changed kind => exact .refused changed kind
    | disconnected asked => cases asked
    | reset resets emits =>
      refine .reset ?_ emits
      cases resets with
      | noRequest received _ _ => cases received
      | request received _ _ => cases received
      | connectError phase failed => exact .connectError phase failed
      | noPeer phase failed => exact .noPeer phase failed
      | readError reads failed => exact .readError reads failed
      | writeError writes failed => exact .writeError writes failed

theorem Path.of_other (h : Path .other s steps t) : Path stimulus s steps t := by
  induction h with
  | quiet h => exact .quiet h
  | move move called => exact .move move.of_other called
  | append _ _ ih ih' => exact .append ih ih'

theorem Drains.of_other (h : Drains .other s steps t) : Drains stimulus s steps t where
  path := h.path.of_other
  upstream := h.upstream
  settled := h.settled
  halfClosed := h.halfClosed
  aware := h.aware
  invited := h.invited

theorem Course.of_other (h : Course .other s steps t) : Course stimulus s steps t := by
  induction h with
  | quiet h => exact .quiet h
  | aside move called aside => exact .aside move.of_other called aside
  | reading path downstream readOut => exact .reading path.of_other downstream readOut
  | writing drains => exact .writing drains.of_other
  | ending move called unconfirmed _ halfClosed ih =>
    exact .ending move.of_other called unconfirmed ih halfClosed
  | append _ _ ih ih' => exact .append ih ih'

/-- Nothing but a segment can be the end of the device's stream. -/
theorem Path.not_isEnd (h : Path .other s steps t) : ∀ step ∈ steps, step.mark.isEnd = false := by
  refine h.invariant (I := fun journal _ => ∀ step ∈ journal, step.mark.isEnd = false) ?_ []
    (List.forall_mem_nil _)
  intro journal f g r r' out out' mark earlier move
  refine List.forall_mem_append.2 ⟨earlier, List.forall_mem_singleton.2 ?_⟩
  cases move with
  | ended received _ _ _ => cases received
  | closed _ ends _ =>
    cases ends with
    | finished received _ _ _ => cases received
    | _ => rfl
  | _ => rfl

/-- What a move makes of the number that the device has to send next. -/
inductive Expects (stimulus : Stimulus) (f : TcpFlow) (mark : Mark) (g : TcpFlow) : Prop where
  | same (noEnd : mark.isEnd = false) (expected_eq : g.expected = f.expected)
  /-- Only a flow that has not answered the device yet takes it from the segment. -/
  | opening {segment : Segment} (received : stimulus = .segment segment)
      (connecting : f.phase.isConnecting = true) (noEnd : mark.isEnd = false)
      (expected_eq : g.expected = segment.opening)
  | took {segment : Segment} {sent : Sent} (mark_eq : mark = .took segment sent)
      (received : stimulus = .segment segment) (phase : f.phase.takesPayload = true)
      (expected_eq : g.expected = f.expected + segment.payload.length.toUInt32)
  | ended {segment : Segment} (isEnd : mark.isEnd = true) (received : stimulus = .segment segment)
      (atEnd : f.AtEnd segment) (expected_eq : g.expected = f.expected + 1)

theorem Move.expects {f g : TcpFlow} {r r' : Registry} {out out' : σ} {mark : Mark}
    (move : Move stimulus ⟨f, r, out⟩ mark ⟨g, r', out'⟩) : Expects stimulus f mark g := by
  cases move with
  | opened received phase syn _ =>
    exact .opening received (by rw [phase]; rfl) rfl (by simp [Segment.opening, syn])
  | reopened received phase syn =>
    exact .opening received (by rw [phase]; rfl) rfl (by simp [Segment.opening, syn])
  | connected _ emits => exact .same rfl emits.same.expected_eq
  | took received _ _ phase _ _ emits => exact .took rfl received phase emits.same.expected_eq
  | ended received atEnd _ emits => exact .ended rfl received atEnd emits.same.expected_eq
  | missed reads _ => exact .same rfl reads.same.expected_eq
  | delivered reads _ _ _ _ _ => exact .same rfl reads.same.expected_eq
  | exhausted reads emits =>
    exact .same rfl (emits.same.expected_eq.trans reads.same.expected_eq)
  | widened _ _ _ emits => exact .same rfl emits.same.expected_eq
  | closed _ ends _ =>
    cases ends with
    | finished received atEnd _ emits => exact .ended rfl received atEnd emits.same.expected_eq
    | reset resets emits =>
      have same := emits.same.expected_eq
      cases resets with
      | noRequest received phase not_syn =>
        exact .opening received (by rw [phase]; rfl) rfl
          (same.trans (by simp [Segment.opening, not_syn]))
      | readError reads _ => exact .same rfl (same.trans reads.same.expected_eq)
      | _ => exact .same rfl same
    | _ => exact .same rfl rfl
  | unconnected | acknowledged | retried | wrote | blocked | shut | told => exact .same rfl rfl

theorem Move.expected_eq {f g : TcpFlow} {r r' : Registry} {out out' : σ} {mark : Mark}
    (h : Move .other ⟨f, r, out⟩ mark ⟨g, r', out'⟩) : g.expected = f.expected := by
  cases h.expects with
  | same _ expected_eq => exact expected_eq
  | opening received _ _ _ => cases received
  | took _ received _ _ => cases received
  | ended _ received _ _ => cases received

theorem Path.expected_eq (h : Path .other s steps t)
    (connected : s.self.phase.isConnecting = false) :
    t.self.expected = s.self.expected ∧ t.self.phase.isConnecting = false :=
  h.invariant (I := fun _ f => f.expected = s.self.expected ∧ f.phase.isConnecting = false)
    (fun hf move => ⟨move.expected_eq.trans hf.1, move.stays_connected hf.2⟩) [] ⟨rfl, connected⟩

theorem ensures_updateInterest (stimulus : Stimulus)
    (h : ∀ steps t, Course stimulus s steps t → Q () t) : Ensures updateInterest s Q := by
  simp only [updateInterest, ensures_bind, ensures_self]
  split
  · exact (ensures_pure _).2 (h _ _ (.quiet (.refl _)))
  · next isOpen =>
    replace isOpen : s.self.phase ≠ .closed := by simpa [isClosed] using isOpen
    rw [ensures_bind]
    apply Registration.ensures_update
    · intro _
      exact (ensures_modifySelf _).2 (h _ _ (.quiet (.refl _)))
    · intro changed host called
      have move : Move stimulus ⟨s.self, s.registry, s.out⟩ (.told _) _ := .told isOpen changed
      exact (ensures_modifySelf _).2 (h _ _ (.aside move called rfl))
    · intro changed kind host called
      simp only [ensures_bind, ensures_say]
      refine ensures_close ?_ ?_
      · exact isOpen
      intro registration call host' cancels called'
      have move : Move stimulus ⟨s.self, s.registry, s.out⟩ (.closed (.refused _) call) _ :=
        .closed isOpen (.refused changed kind) cancels
      exact h _ _ (.aside move ((called.note _).trans called') rfl)

/-- The first packet opens the flow, or ends it at once. -/
theorem ensures_handleFirst {segment : Segment} (received : stimulus = .segment segment)
    (phase : s.self.phase = .initial)
    (h : ∀ steps t, Course stimulus s steps t → (∀ step ∈ steps, step.mark.isEnd = false) → Q () t) :
    Ensures (handleFirst segment) s Q := by
  unfold handleFirst
  split
  · next syn =>
    simp only [ensures_bind, ensures_call, ensures_modifySelf]
    apply ensures_setPhase
    intro host called
    have move : Move stimulus ⟨s.self, s.registry, s.out⟩ (.opened segment s.host.random.1) _ :=
      .opened received phase syn _
    exact h _ _ (.aside move ((Host.After.refl _).random.trans called) rfl)
      (List.forall_mem_singleton.2 rfl)
  · next syn =>
    simp only [ensures_bind, ensures_say, ensures_liftM, ensures_modifySelf]
    intro length hl
    obtain rfl := narrow32_eq hl
    have resets : s.self.Resets stimulus (.noRequest segment) _ :=
      .noRequest received phase (by simpa using syn)
    refine ensures_reset_aside ?_ resets rfl ((Host.After.refl _).note _) (fun _ _ => rfl) ?_
    · simp [phase]
    · exact fun _ _ _ course => h _ _ course (List.forall_mem_singleton.2 rfl)

theorem ensures_handleSyn {segment : Segment} (received : stimulus = .segment segment)
    (phase : s.self.phase ≠ .initial) (isOpen : s.self.phase ≠ .closed)
    (syn : segment.flags.has .syn = true)
    (h : ∀ steps t, Course stimulus s steps t → (∀ step ∈ steps, step.mark.isEnd = false) → Q () t) :
    Ensures (handleSyn segment) s Q := by
  simp only [handleSyn, ensures_bind, ensures_self]
  split
  · next sent =>
    simp only [ensures_bind, ensures_say, ensures_modifySelf]
    have move : Move stimulus ⟨s.self, s.registry, s.out⟩ (.reopened segment) _ :=
      .reopened received sent syn
    exact h _ _ (.aside move ((Host.After.refl _).note _) rfl) (List.forall_mem_singleton.2 rfl)
  · next sent =>
    simp only [ensures_bind, ensures_say]
    have connected : s.self.phase.isConnecting = false := by
      cases hp : s.self.phase <;> simp_all [Phase.isConnecting]
    have resets : s.self.Resets stimulus (.request segment) s.self :=
      .request received connected syn
    exact ensures_reset_aside isOpen resets rfl ((Host.After.refl _).note _) (fun _ _ => rfl)
      fun _ _ _ course => h _ _ course (List.forall_mem_singleton.2 rfl)

theorem InOrder.of_path {segment : Segment} (h : s.self.InOrder segment)
    (path : Path .other s steps t) (isOpen : t.self.phase ≠ .closed) : t.self.InOrder segment where
  connected := (path.expected_eq h.connected).2
  isOpen := isOpen
  not_syn := h.not_syn
  not_rst := h.not_rst
  sequence_eq := h.sequence_eq.trans (path.expected_eq h.connected).1.symm

private theorem ensures_close_of_confirmed {segment : Segment}
    (received : stimulus = .segment segment) (inOrder : s.self.InOrder segment)
    (ack : segment.flags.has .ack = true)
    (phase : s.self.phase = .closing ∨ s.self.phase = .lastAck)
    (all : segment.acknowledgement = s.self.sequence) {host : Host}
    (called : s.host.After [] host)
    (h : ∀ steps t, Course stimulus s steps t → Downstream steps →
      (t.self.phase ≠ .closed → t.self.InOrder segment ∧ t.self.phase ≠ .synReceived) → Q () t) :
    Ensures close { s with
      self := { s.self with confirmed := segment.acknowledgement, window := segment.window }
      host } Q := by
  refine ensures_close ?_ ?_
  · exact inOrder.isOpen
  intro registration call host' cancels called'
  have move : Move stimulus ⟨s.self, s.registry, s.out⟩ (.closed (.confirmed segment) call) _ :=
    .closed inOrder.isOpen (.confirmed received inOrder ack phase all) cancels
  have path : Path stimulus s [_] _ := .move move (called.trans called')
  -- A closed flow has nothing to read.
  exact h _ _ (.reading path (downstream_singleton rfl) nofun) (downstream_singleton rfl)
    fun isOpen => absurd rfl isOpen

private theorem ensures_processReceive_of_confirmed {segment : Segment} {phase : Phase}
    (received : stimulus = .segment segment) (inOrder : s.self.InOrder segment)
    (ack : segment.flags.has .ack = true)
    (goesOn : ¬((s.self.phase = .closing ∨ s.self.phase = .lastAck) ∧
      segment.acknowledgement = s.self.sequence))
    (hp : s.self.phase.confirmed (segment.acknowledgement == s.self.sequence) = phase)
    {host : Host} (called : s.host.After [] host)
    (h : ∀ steps t, Course stimulus s steps t → Downstream steps →
      (t.self.phase ≠ .closed → t.self.InOrder segment ∧ t.self.phase ≠ .synReceived) → Q () t) :
    Ensures processReceive { s with
      self := { s.self with confirmed := segment.acknowledgement, window := segment.window, phase }
      host } Q := by
  have move : Move stimulus ⟨s.self, s.registry, s.out⟩ (.acknowledged segment) _ :=
    .acknowledged received inOrder ack goesOn
  rw [hp] at move
  -- Reading the socket is not a reaction to the segment: what comes next in order stays the same.
  refine ensures_processReceive .other ?_
  intro more t path downstream readOut
  have first : Path stimulus s [⟨s.self, .acknowledged segment, _⟩] _ := .move move called
  have connected : phase.isConnecting = false := by
    rw [← hp, Phase.isConnecting_confirmed]
    exact inOrder.connected
  refine h _ _ (.reading (first.append path.of_other) ?downstream (readOut.append [_])) ?downstream
    fun isOpen => ⟨InOrder.of_path ?_ path isOpen, fun unconfirmed => ?_⟩
  case downstream => exact (downstream_singleton rfl).append downstream
  · refine ⟨connected, ?_, inOrder.not_syn, inOrder.not_rst, inOrder.sequence_eq⟩
    intro closed
    rw [← hp, Phase.confirmed_eq_closed] at closed
    exact inOrder.isOpen closed
  · have same : phase = .synReceived := path.stays_confirmed connected unconfirmed
    exact Phase.confirmed_ne_synReceived (hp.trans same)

/-- What the device confirms may end the flow. -/
theorem ensures_handleAck {segment : Segment} (received : stimulus = .segment segment)
    (inOrder : s.self.InOrder segment) (ack : segment.flags.has .ack = true)
    (h : ∀ steps t, Course stimulus s steps t → Downstream steps →
      (t.self.phase ≠ .closed → t.self.InOrder segment ∧ t.self.phase ≠ .synReceived) → Q () t) :
    Ensures (handleAck segment) s Q := by
  simp only [handleAck, ensures_bind, ensures_modifySelf, ensures_self]
  split
  · next phase all =>
    simp only [ensures_bind, ensures_say]
    exact ensures_close_of_confirmed received inOrder ack (.inl phase) (by simpa using all)
      ((Host.After.refl _).note _) h
  · next phase all =>
    simp only [ensures_bind, ensures_say]
    exact ensures_close_of_confirmed received inOrder ack (.inr phase) (by simpa using all)
      ((Host.After.refl _).note _) h
  · next phase =>
    simp only [ensures_bind]
    apply ensures_setPhase
    intro host called
    exact ensures_processReceive_of_confirmed received inOrder ack (by simp [phase])
      (by rw [phase]; rfl) called h
  · next phase all =>
    simp only [ensures_bind]
    apply ensures_setPhase
    intro host called
    exact ensures_processReceive_of_confirmed received inOrder ack (by simp [phase])
      (by rw [phase, all]; rfl) called h
  · next notReceived notClosing notLastAck notFinWait =>
    refine ensures_processReceive_of_confirmed received inOrder ack ?goesOn ?confirmed (.refl _) h
    case goesOn =>
      rintro ⟨phase | phase, all⟩
      · exact notClosing phase (by simpa using all)
      · exact notLastAck phase (by simpa using all)
    case confirmed =>
      cases hp : s.self.phase <;> cases ha : segment.acknowledgement == s.self.sequence <;>
        simp_all [Phase.confirmed]

/-- The flow takes payload, and has room for that of the segment. -/
structure CanTake (f : TcpFlow) (segment : Segment) : Prop where
  phase : f.phase.takesPayload = true
  nonempty : segment.payload ≠ []
  fits : segment.payload.length ≤ f.ring.remaining

def Takes (segment : Segment) (steps : List Step) : Prop :=
  ∃ step ∈ steps, ∃ sent, step.mark = .took segment sent

theorem Takes.append {segment : Segment} (h : Takes segment steps) (more : List Step) :
    Takes segment (steps ++ more) := by
  obtain ⟨step, hs, sent, took⟩ := h
  exact ⟨step, List.mem_append_left _ hs, sent, took⟩

theorem Takes.prepend {segment : Segment} (h : Takes segment steps) (earlier : List Step) :
    Takes segment (earlier ++ steps) := by
  obtain ⟨step, hs, sent, took⟩ := h
  exact ⟨step, List.mem_append_right _ hs, sent, took⟩

/-- The end of the segment was noted only if its payload was taken. -/
def Whole (segment : Segment) (steps : List Step) : Prop :=
  segment.payload = [] ∨ Takes segment steps ∨ ∀ step ∈ steps, step.mark.isEnd = false

theorem Whole.append {segment : Segment} {more : List Step} (h : Whole segment steps)
    (none : ∀ step ∈ more, step.mark.isEnd = false) : Whole segment (steps ++ more) := by
  refine h.imp_right (.imp (·.append more) fun earlier => ?_)
  exact List.forall_mem_append.2 ⟨earlier, none⟩

theorem Whole.prepend {segment : Segment} {earlier : List Step} (h : Whole segment steps)
    (none : ∀ step ∈ earlier, step.mark.isEnd = false) : Whole segment (earlier ++ steps) := by
  refine h.imp_right (.imp (·.prepend earlier) fun later => ?_)
  exact List.forall_mem_append.2 ⟨none, later⟩

/-- A read failed for good, which reset the flow. -/
def FailsToRead (steps : List Step) : Prop :=
  ∃ step ∈ steps, ∃ size kind sent call,
    step.mark = .closed (.reset (.readError size kind) sent) call

theorem FailsToRead.append (h : FailsToRead steps) (more : List Step) :
    FailsToRead (steps ++ more) := by
  obtain ⟨step, hs, failed⟩ := h
  exact ⟨step, List.mem_append_left _ hs, failed⟩

/-- What happens in the stream to the device leaves the room for the device's payload as it is, unless
it ends the flow. -/
theorem Move.canTake {segment : Segment} {f g : TcpFlow} {r r' : Registry} {out out' : σ}
    {mark : Mark} (move : Move stimulus ⟨f, r, out⟩ mark ⟨g, r', out'⟩)
    (downstream : mark.isDownstream = true) (can : f.CanTake segment) :
    g.CanTake segment ∨ g.phase = .closed ∧ FailsToRead [⟨f, mark, g⟩] := by
  obtain ⟨phase, nonempty, fits⟩ := can
  cases move with
  | acknowledged _ _ _ _ => exact .inl ⟨Phase.takesPayload_confirmed phase, nonempty, fits⟩
  | retried _ _ _ _ => exact .inl ⟨phase, nonempty, fits⟩
  | missed reads _ =>
    exact .inl ⟨reads.same.phase_eq ▸ phase, nonempty, reads.same.ring_eq ▸ fits⟩
  | delivered reads _ _ _ _ _ =>
    exact .inl ⟨reads.same.phase_eq ▸ phase, nonempty, reads.same.ring_eq ▸ fits⟩
  | exhausted reads emits =>
    have phase_eq := emits.same.phase_eq.trans reads.same.phase_eq
    have ring_eq := emits.same.ring_eq.trans reads.same.ring_eq
    exact .inl ⟨Phase.takesPayload_remoteFinished (phase_eq ▸ phase), nonempty, ring_eq ▸ fits⟩
  | closed _ ends _ =>
    cases ends with
    | confirmed _ _ _ last _ =>
      rcases last with last | last <;> simp [last, Phase.takesPayload] at phase
    | reset resets _ =>
      cases resets with
      | readError _ _ => exact .inr ⟨rfl, _, List.mem_cons_self, _, _, _, _, rfl⟩
      | _ => cases downstream
    | _ => cases downstream
  | _ => cases downstream

theorem Path.canTake {segment : Segment} (path : Path stimulus s steps t)
    (downstream : Downstream steps) (can : s.self.CanTake segment) :
    t.self.CanTake segment ∨ t.self.phase = .closed ∧ FailsToRead steps := by
  refine path.invariant (I := fun journal f => Downstream journal →
    f.CanTake segment ∨ f.phase = .closed ∧ FailsToRead journal) ?_ [] (fun _ => .inl can) downstream
  intro journal f g r r' out out' mark hf move downstream
  have last : mark.isDownstream = true := downstream _ (List.mem_append_right _ List.mem_cons_self)
  rcases hf fun step hs => downstream step (List.mem_append_left _ hs) with can | ⟨closed, -⟩
  · refine (move.canTake last can).imp_right ?_
    rintro ⟨closed, step, hs, failed⟩
    exact ⟨closed, step, List.mem_append_right _ hs, failed⟩
  · exact absurd closed move.isOpen

/-- Payload that is taken is written as far as the ring is. -/
theorem Drains.took {segment : Segment} {sent : Sent} {g : TcpFlow} {r : Registry} {out : σ}
    {host : Host} {n : Nat} {ring : StreamRing} (drains : Drains stimulus ⟨g, r, out, host⟩ steps t)
    (first : Path stimulus s [⟨s.self, .took segment sent, g⟩] ⟨g, r, out, host⟩)
    (pushed : s.self.ring.push segment.payload = .ok (n, ring)) (ring_eq : g.ring = ring) :
    Drains stimulus s (⟨s.self, .took segment sent, g⟩ :: steps) t where
  path := first.append drains.path
  upstream := List.forall_mem_cons.2 ⟨.inl rfl, drains.upstream⟩
  settled := drains.settled.append [_]
  halfClosed := drains.halfClosed
  aware := by
    rintro ⟨step, listed, write⟩
    rcases List.mem_cons.1 listed with rfl | listed
    · cases write
    · exact drains.aware ⟨step, listed, write⟩
  invited sound := by
    refine ⟨fun relieves => absurd relieves.1 Bool.false_ne_true, drains.invited ?_⟩
    rw [ring_eq]
    exact sound.push pushed

/-- Payload is taken as a whole and then written as far as the socket permits, or it is ignored. -/
theorem ensures_handlePayload {segment : Segment} {Q : Bool → Scene TcpFlow σ → Prop}
    (received : stimulus = .segment segment) (inOrder : s.self.InOrder segment)
    (nonempty : segment.payload ≠ [])
    (ignored : ¬s.self.CanTake segment → ∀ host, s.host.After [] host → Q false { s with host })
    (taken : ∀ steps t, Course stimulus s steps t → Takes segment steps →
      t.self.phase.isConnecting = false → t.self.phase ≠ .synReceived →
      t.self.expected = segment.sequence + segment.payload.length.toUInt32 → Q true t) :
    Ensures (handlePayload segment.payload) s Q := by
  simp only [handlePayload, ensures_bind, ensures_self]
  split
  · next phase =>
    simp only [ensures_bind, ensures_say, ensures_pure]
    exact ignored (fun can => by simp [can.phase] at phase) _ ((Host.After.refl _).note _)
  · next phase =>
    split
    · next full =>
      simp only [ensures_bind, ensures_say, ensures_pure]
      exact ignored (fun can => Nat.not_lt_of_le can.fits full) _ ((Host.After.refl _).note _)
    · next fits =>
      replace fits : segment.payload.length ≤ s.self.ring.remaining := by omega
      simp only [ensures_bind, ensures_liftM, ensures_modifySelf]
      rintro ⟨n, ring⟩ pushed length hl
      obtain rfl := narrow32_eq hl
      obtain rfl : n = segment.payload.length :=
        (StreamRing.taken_of_push pushed).trans (Nat.min_eq_left fits)
      apply ensures_sendControl
      intro sent g out host emits called
      have move : Move stimulus ⟨s.self, s.registry, s.out⟩ (.took segment sent) _ :=
        .took received inOrder nonempty (by simpa using phase) fits pushed emits
      have phase' : g.phase = s.self.phase := emits.same.phase_eq
      have expected : g.expected = segment.sequence + segment.payload.length.toUInt32 := by
        rw [emits.same.expected_eq, inOrder.sequence_eq]
      have connected : g.phase.isConnecting = false := phase' ▸ inOrder.connected
      refine ensures_processSend .other connected (phase' ▸ inOrder.isOpen) ?_
      intro more t drains
      have expected' := drains.path.expected_eq connected
      have first : Path stimulus s [⟨s.self, .took segment sent, g⟩] _ := .move move called
      refine (ensures_pure _).2 (taken _ _ (.writing (drains.of_other.took first pushed emits.same.ring_eq))
        ⟨_, List.mem_cons_self, sent, rfl⟩ expected'.2 (fun unconfirmed => ?_)
        (expected'.1.trans expected))
      have received : g.phase = .synReceived := drains.path.stays_confirmed connected unconfirmed
      simp [← phase', received, Phase.takesPayload] at phase

private theorem Course.ended {segment : Segment} {f g : TcpFlow} {next : Phase} {sent : Sent}
    {out : σ} {host : Host} (received : stimulus = .segment segment) (atEnd : s.self.AtEnd segment)
    (unconfirmed : s.self.phase = .synReceived → segment.flags.has .ack = false)
    (hf : { s.self with expected := s.self.expected + 1, deviceClosed := true } = f)
    (waits : s.self.phase ≠ .finWait2) (hn : s.self.phase.deviceFinished = next)
    (emits : Emits .ack f s.out sent g out) (called : s.host.After [sent.call] host)
    (rest : Course stimulus { s with self := { g with phase := next }, out, host } steps t)
    (halfClosed : t.self.HalfClosed) :
    Course stimulus s (⟨s.self, .ended segment sent, { g with phase := next }⟩ :: steps) t := by
  have move : Move stimulus ⟨s.self, s.registry, s.out⟩ (.ended segment sent)
      ⟨{ g with phase := g.phase.deviceFinished }, s.registry, out⟩ :=
    .ended received atEnd waits (hf ▸ emits)
  have phase : g.phase = s.self.phase := by rw [emits.same.phase_eq, ← hf]
  rw [phase, hn] at move
  exact .ending move called unconfirmed rest halfClosed

private theorem ensures_acknowledgeEnd {segment : Segment} {f : TcpFlow}
    (received : stimulus = .segment segment) (atEnd : s.self.AtEnd segment)
    (unconfirmed : s.self.phase = .synReceived → segment.flags.has .ack = false)
    (hf : { s.self with expected := s.self.expected + 1, deviceClosed := true } = f) (next : Phase)
    (waits : s.self.phase ≠ .finWait2) (hn : s.self.phase.deviceFinished = next)
    (h : ∀ steps t, Course stimulus s steps t → Q () t) :
    Ensures (do
      sendControl .ack
      setPhase next
      maybeShutWrite) { s with self := f } Q := by
  rw [ensures_bind]
  apply ensures_sendControl
  intro sent g out host emits called
  rw [ensures_bind]
  apply ensures_setPhase
  intro host' called'
  refine ensures_maybeShutWrite_course stimulus ?_
  intro steps t rest halfClosed
  exact h _ _ (.ended received atEnd unconfirmed hf waits hn emits (called.trans called') rest
    halfClosed)

private theorem ensures_acknowledgeEnd_of_same {segment : Segment} {f : TcpFlow}
    (received : stimulus = .segment segment) (atEnd : s.self.AtEnd segment)
    (unconfirmed : s.self.phase = .synReceived → segment.flags.has .ack = false)
    (hf : { s.self with expected := s.self.expected + 1, deviceClosed := true } = f)
    (waits : s.self.phase ≠ .finWait2) (hn : s.self.phase.deviceFinished = s.self.phase)
    (h : ∀ steps t, Course stimulus s steps t → Q () t) :
    Ensures (do
      sendControl .ack
      maybeShutWrite) { s with self := f } Q := by
  rw [ensures_bind]
  apply ensures_sendControl
  intro sent g out host emits called
  refine ensures_maybeShutWrite_course stimulus ?_
  intro steps t rest halfClosed
  have phase : g.phase = s.self.phase := by rw [emits.same.phase_eq, ← hf]
  have same : { g with phase := s.self.phase } = g := by rw [← phase]
  exact h _ _ (.ended received atEnd unconfirmed hf waits hn emits called (same.symm ▸ rest)
    halfClosed)

/-- An end that was reached moves a consistent flow on, and closes it if it was the last to come. -/
theorem ensures_handleFin {segment : Segment} (received : stimulus = .segment segment)
    (atEnd : s.self.AtEnd segment) (consistent : Consistent s.self)
    (unconfirmed : s.self.phase = .synReceived → segment.flags.has .ack = false)
    (h : ∀ steps t, Course stimulus s steps t → Q () t) : Ensures handleFin s Q := by
  simp only [handleFin, ensures_bind, ensures_modifySelf]
  generalize hf :
    ({ s.self with expected := s.self.expected + 1, deviceClosed := true } : TcpFlow) = f
  have same : f.phase = s.self.phase ∧ f.remoteClosed = s.self.remoteClosed := by
    subst hf
    exact ⟨rfl, rfl⟩
  obtain ⟨phase, remoteClosed⟩ := same
  have early (hp : s.self.phase.afterRemote = false) : (f.remoteClosed && !f.pending) = false := by
    rw [remoteClosed, consistent.remoteClosed_eq, hp]
    rfl
  rw [ensures_self, phase]
  split
  · next hp =>
    rw [if_neg (by simp [early, hp, Phase.afterRemote])]
    simpa using ensures_acknowledgeEnd received atEnd unconfirmed hf .closeWait (by simp [hp])
      (by rw [hp]; rfl) h
  · next hp =>
    rw [if_neg (by simp [early, hp, Phase.afterRemote])]
    simpa using ensures_acknowledgeEnd received atEnd unconfirmed hf .closeWait (by simp [hp])
      (by rw [hp]; rfl) h
  · next hp =>
    exact ensures_acknowledgeEnd received atEnd unconfirmed hf .closing (by simp [hp])
      (by rw [hp]; rfl) h
  · next hp =>
    rw [ensures_bind]
    apply ensures_sendControl
    intro sent g out host emits called
    simp only [ensures_bind, ensures_say]
    refine ensures_close ?_ ?_
    · exact (emits.same.phase_eq.trans phase) ▸ atEnd.isOpen
    intro registration call host' cancels called'
    have move : Move stimulus ⟨s.self, s.registry, s.out⟩ (.closed (.finished segment sent) call) _ :=
      .closed atEnd.isOpen (.finished received atEnd hp (hf ▸ emits)) cancels
    exact h _ _ (.aside move ((called.note _).trans called') rfl)
  · next notReceived notEstablished notFinWait1 waits =>
    refine ensures_acknowledgeEnd_of_same received atEnd unconfirmed hf (fun hp => waits hp) ?_ h
    cases hp : s.self.phase <;> simp_all [Phase.deviceFinished]

/-- An end counts only behind payload that was taken. -/
theorem ensures_handleContent {segment : Segment} (received : stimulus = .segment segment)
    (inOrder : s.self.InOrder segment) (consistent : Consistent s.self)
    (unconfirmed : s.self.phase = .synReceived → segment.flags.has .ack = false)
    (h : ∀ steps t, Course stimulus s steps t → (s.self.CanTake segment → Takes segment steps) →
      Whole segment steps → Q () t) :
    Ensures (handleContent segment) s Q := by
  unfold handleContent
  have finish {steps : List Step} {t : Scene TcpFlow σ} (course : Course stimulus s steps t)
      (takes : segment.payload = [] ∨ Takes segment steps)
      (connected : t.self.phase.isConnecting = false)
      (unconfirmed : t.self.phase = .synReceived → segment.flags.has .ack = false)
      (expected : t.self.expected = segment.sequence + segment.payload.length.toUInt32) :
      Ensures (do
        if true && !(← self).isClosed && segment.flags.has .fin then
          handleFin
        else
          return ()) t Q := by
    have all {more : List Step} (can : s.self.CanTake segment) : Takes segment (steps ++ more) :=
      (takes.resolve_left can.nonempty).append more
    have whole {more : List Step} : Whole segment (steps ++ more) :=
      takes.imp_right fun takes => .inl (takes.append more)
    rw [ensures_bind, ensures_self]
    split
    · next due =>
      simp only [Bool.true_and, Bool.and_eq_true, Bool.not_eq_true', isClosed,
        beq_eq_false_iff_ne] at due
      have atEnd : t.self.AtEnd segment :=
        ⟨connected, due.1, inOrder.not_syn, inOrder.not_rst, due.2, expected⟩
      refine ensures_handleFin received atEnd ?_ unconfirmed ?_
      · exact course.path.consistent (fun _ => consistent) due.1
      · intro more u hu
        exact h _ _ (course.append hu) all whole
    · refine (ensures_pure _).2 ?_
      simpa using h _ _ (course.append (.quiet (.refl _))) all whole
  split
  · next empty =>
    rw [ensures_bind, ensures_pure]
    refine finish (.quiet (.refl _)) (.inl empty) inOrder.connected unconfirmed ?_
    rw [empty]
    simpa using inOrder.sequence_eq.symm
  · next nonempty =>
    rw [ensures_bind]
    refine ensures_handlePayload received inOrder nonempty ?_ ?_
    · intro cannot host called
      simpa using h _ _ (.quiet called) (fun can => absurd can cannot)
        (.inr (.inr (List.forall_mem_nil _)))
    · intro steps t course takes connected confirmed expected
      exact finish course (.inr takes) connected (fun phase => absurd phase confirmed) expected

/-- A segment that asks for nothing new is handled if it is the next one. Payload that there is room
for is taken, unless confirming what was sent comes upon a socket that fails. -/
theorem ensures_handleSegment {segment : Segment} (received : stimulus = .segment segment)
    (phase : s.self.phase ≠ .initial) (isOpen : s.self.phase ≠ .closed)
    (not_syn : segment.flags.has .syn = false) (consistent : Consistent s.self)
    (h : ∀ steps t, Course stimulus s steps t →
      (s.self.InOrder segment → s.self.CanTake segment →
        Takes segment steps ∨ segment.flags.has .ack = true ∧ FailsToRead steps) →
      Whole segment steps → Q () t) :
    Ensures (handleSegment segment) s Q := by
  simp only [handleSegment, ensures_bind, ensures_self]
  have ignored {host : Host} (called : s.host.After [] host) (early : ¬s.self.InOrder segment) :
      Q () { s with host } :=
    h _ _ (.quiet called) (fun inOrder => absurd inOrder early) (.inr (.inr (List.forall_mem_nil _)))
  split
  · next rst =>
    simp only [ensures_bind, ensures_say]
    refine ensures_close ?_ ?_
    · exact isOpen
    intro registration call host cancels called
    have move : Move stimulus ⟨s.self, s.registry, s.out⟩ (.closed (.resetByDevice segment) call) _ :=
      .closed isOpen (.resetByDevice received phase rst) cancels
    refine h _ _ (.aside move (((Host.After.refl _).note _).trans called) rfl) ?_ (.inr (.inr ?_))
    · intro inOrder
      exact absurd (inOrder.not_rst.symm.trans rst) Bool.false_ne_true
    · exact List.forall_mem_singleton.2 rfl
  next not_rst =>
  split
  · next sent =>
    refine (ensures_say _).2 (ignored ((Host.After.refl _).note _) fun inOrder => ?_)
    exact absurd sent (not_initial_of_connected inOrder.connected).2
  next notSent =>
  split
  · next outOfOrder =>
    refine (ensures_say _).2 (ignored ((Host.After.refl _).note _) fun inOrder => ?_)
    exact absurd inOrder.sequence_eq outOfOrder
  next inOrder =>
  have connected : s.self.phase.isConnecting = false := by
    cases hp : s.self.phase <;> simp_all [Phase.isConnecting]
  replace inOrder : s.self.InOrder segment :=
    ⟨connected, isOpen, not_syn, by simpa using not_rst, by simpa using inOrder⟩
  have goOn {steps : List Step} {t : Scene TcpFlow σ} (course : Course stimulus s steps t)
      (downstream : Downstream steps)
      (inOrder' : t.self.phase ≠ .closed → t.self.InOrder segment ∧
        (t.self.phase = .synReceived → segment.flags.has .ack = false))
      (room : s.self.CanTake segment → t.self.CanTake segment ∨
        segment.flags.has .ack = true ∧ t.self.phase = .closed ∧ FailsToRead steps) :
      Ensures (do
        if (← self).isClosed then
          return ()
        else
          handleContent segment) t Q := by
    have noEnd (step : Step) (listed : step ∈ steps) : step.mark.isEnd = false :=
      Mark.not_isEnd_of_isDownstream (downstream step listed)
    simp only [ensures_bind, ensures_self]
    split
    · next closed =>
      replace closed : t.self.phase = .closed := by simpa [isClosed] using closed
      refine (ensures_pure _).2 (h _ _ course (fun _ can => .inr ?_) (.inr (.inr noEnd)))
      rcases room can with ⟨phase, -, -⟩ | ⟨ack, -, fails⟩
      · simp [closed, Phase.takesPayload] at phase
      · exact ⟨ack, fails⟩
    · next isOpen' =>
      replace isOpen' : t.self.phase ≠ .closed := by simpa [isClosed] using isOpen'
      obtain ⟨inOrder', unconfirmed⟩ := inOrder' isOpen'
      refine ensures_handleContent received inOrder' ?_ unconfirmed ?_
      · exact course.path.consistent (fun _ => consistent) isOpen'
      · intro more u hu takes whole
        refine h _ _ (course.append hu) (fun _ can => .inl ?_) (whole.prepend noEnd)
        rcases room can with still | ⟨-, closed, -⟩
        · exact (takes still).prepend steps
        · exact absurd closed isOpen'
  split
  · next ack =>
    rw [ensures_bind]
    refine ensures_handleAck received inOrder ack fun steps t course downstream inOrder' => ?_
    refine goOn course downstream (fun isOpen => ?_) fun can => ?_
    · exact (inOrder' isOpen).imp_right fun confirmed phase => absurd phase confirmed
    · exact (course.path.canTake downstream can).imp_right fun failed => ⟨ack, failed⟩
  · next unconfirmed =>
    exact goOn (.quiet (.refl _)) downstream_nil (fun _ => ⟨inOrder, fun _ => by simpa using unconfirmed⟩)
      .inl

/-- The flow finds itself connected, or still connecting, or it ends. -/
theorem ensures_checkConnected (stimulus : Stimulus) (phase : s.self.phase = .synSent)
    (h : ∀ steps t, Course stimulus s steps t → Q () t) : Ensures checkConnected s Q := by
  have isOpen : s.self.phase ≠ .closed := by simp [phase]
  simp only [checkConnected, ensures_bind, ensures_self, ensures_call]
  have called := (Host.After.refl s.host).takeError s.self.socket
  have fail {error : PendingError} {host : Host} (failed : error ≠ .none)
      (called : s.host.After [.takeError s.self.socket error] host) :
      Ensures reset { s with host } Q := by
    have resets : s.self.Resets stimulus (.connectError error) s.self := .connectError phase failed
    exact ensures_reset_aside isOpen resets rfl called (fun _ _ => rfl) fun _ _ _ => h _ _
  split
  · next kind hr =>
    rw [hr] at called
    simp only [ensures_bind, ensures_say]
    exact fail (by simp) (called.note _)
  · next kind hr =>
    rw [hr] at called
    simp only [ensures_bind, ensures_say]
    exact fail (by simp) (called.note _)
  next hr =>
  rw [hr] at called
  simp only [ensures_bind, ensures_call]
  replace called := called.peerAddress s.self.socket
  have waits {kind : ErrorKind} {host : Host} (waits : kind = .notConnected ∨ kind = .wouldBlock)
      (called : s.host.After
        [.takeError s.self.socket .none, .peerAddress s.self.socket (some kind)] host) :
      Q () { s with host } := by
    have move : Move stimulus ⟨s.self, s.registry, s.out⟩ (.unconnected kind) _ :=
      .unconnected phase waits
    exact h _ _ (.aside move called rfl)
  split
  · next hr =>
    rw [hr] at called
    simp only [ensures_bind, ensures_say]
    apply ensures_setPhase
    intro host called'
    apply ensures_sendControl
    intro sent g out host' emits called''
    have move : Move stimulus ⟨s.self, s.registry, s.out⟩ (.connected sent) _ :=
      .connected phase emits
    exact (ensures_modifySelf _).2
      (h _ _ (.aside move (((called.note _).trans called').trans called'') rfl))
  · next hr =>
    rw [hr] at called
    exact (ensures_say _).2 (waits (.inl rfl) (called.note _))
  · next hr =>
    rw [hr] at called
    exact (ensures_say _).2 (waits (.inr rfl) (called.note _))
  · next kind notConnected notBlocked hr =>
    rw [hr] at called
    simp only [ensures_bind, ensures_say]
    have resets : s.self.Resets stimulus (.noPeer kind) s.self :=
      .noPeer phase ⟨notConnected, notBlocked⟩
    exact ensures_reset_aside isOpen resets rfl (called.note _) (fun _ _ => rfl) fun _ _ _ => h _ _

/-- What a flow does with a packet. -/
structure Reception (found : Option Segment) (s : Scene TcpFlow σ) (steps : List Step)
    (t : Scene TcpFlow σ) : Prop where
  course : Course (.ofSegment? found) s steps t
  whole : ∀ segment, found = some segment → Whole segment steps

theorem Reception.path {found : Option Segment} (h : Reception found s steps t) :
    Path (.ofSegment? found) s steps t := h.course.path

/-- The next payload is taken if there is room for it, unless the socket turns out to have failed. -/
theorem ensures_receive {packet : Packet}
    (consistent : s.self.phase ≠ .closed → Consistent s.self)
    (h : ∀ found, Segment.ofPacket packet = .ok found →
      ∀ steps t, Reception found s steps t →
        (∀ segment, found = some segment → s.self.InOrder segment → s.self.CanTake segment →
          Takes segment steps ∨ segment.flags.has .ack = true ∧ FailsToRead steps) → Q () t) :
    Ensures (receive packet) s Q := by
  simp only [receive, ensures_bind, ensures_liftM]
  intro found hi
  split
  · refine (ensures_pure _).2 (h _ hi _ _ ⟨.quiet (.refl _), ?_⟩ ?_)
    · rintro _ ⟨⟩
    · rintro _ ⟨⟩
  next segment =>
  simp only [ensures_bind, ensures_say, ensures_self]
  generalize hs : Host.record _ s.host = host
  have called : s.host.After [] host := hs ▸ (Host.After.refl _).note _
  have finish {steps : List Step} {t : Scene TcpFlow σ}
      (course : Course (.segment segment) { s with host } steps t)
      (takes : s.self.InOrder segment → s.self.CanTake segment →
        Takes segment steps ∨ segment.flags.has .ack = true ∧ FailsToRead steps)
      (whole : Whole segment steps) :
      Ensures updateInterest t Q := by
    refine ensures_updateInterest .other ?_
    intro more u hu
    refine h _ hi _ _ ⟨((Course.quiet called).append course).append hu.of_other, ?_⟩ ?_
    · rintro _ ⟨⟩
      exact whole.append hu.path.not_isEnd
    rintro _ ⟨⟩ inOrder can
    refine (takes inOrder can).imp (·.append more) ?_
    rintro ⟨ack, fails⟩
    exact ⟨ack, fails.append more⟩
  split
  · next closed =>
    refine (ensures_pure _).2 (h _ hi _ _ ⟨.quiet called, ?_⟩ fun _ _ inOrder => ?_)
    · exact fun _ _ => .inr (.inr (List.forall_mem_nil _))
    · exact absurd closed inOrder.isOpen
  · next phase =>
    rw [ensures_bind]
    refine ensures_handleFirst rfl phase fun _ _ course noEnd => ?_
    refine finish course (fun inOrder => ?_) (.inr (.inr noEnd))
    exact absurd phase (not_initial_of_connected inOrder.connected).1
  · next isOpen phase =>
    split
    · next syn =>
      rw [ensures_bind]
      refine ensures_handleSyn rfl phase isOpen syn fun _ _ course noEnd => ?_
      refine finish course (fun inOrder => ?_) (.inr (.inr noEnd))
      exact absurd (inOrder.not_syn.symm.trans syn) Bool.false_ne_true
    · next syn =>
      rw [ensures_bind]
      refine ensures_handleSegment rfl ?_ ?_ (by simpa using syn) ?_ fun _ _ => finish
      · exact phase
      · exact isOpen
      · exact consistent isOpen

theorem ensures_onReady {readiness : Readiness}
    (h : ∀ steps t, Course .other s steps t → Q () t) : Ensures (onReady readiness) s Q := by
  simp only [onReady, ensures_bind, ensures_self]
  have finish {steps : List Step} {t : Scene TcpFlow σ} (course : Course .other s steps t) :
      Ensures updateInterest t Q := by
    refine ensures_updateInterest .other ?_
    intro more u hu
    exact h _ _ (course.append hu)
  have receive {steps : List Step} {t : Scene TcpFlow σ} (course : Course .other s steps t) :
      Ensures (do
        if readiness.readable then
          processReceive
        updateInterest) t Q := by
    split
    · rw [ensures_bind]
      refine ensures_processReceive .other ?_
      intro more u path downstream readOut
      exact finish (course.append (.reading path downstream readOut))
    · exact finish course
  split
  · exact (ensures_pure _).2 (h _ _ (.quiet (.refl _)))
  · exact finish (.quiet (.refl _))
  · next phase =>
    split
    · rw [ensures_bind]
      exact ensures_checkConnected .other phase fun _ _ => finish
    · exact finish (.quiet (.refl _))
  · next isOpen notInitial notSent =>
    have connected : s.self.phase.isConnecting = false := by
      cases hp : s.self.phase <;> simp_all [Phase.isConnecting]
    split
    · rw [ensures_bind]
      exact ensures_processSend .other connected isOpen fun _ _ drains => receive (.writing drains)
    · exact receive (.quiet (.refl _))

theorem Consistent.unfinished {f : TcpFlow} (consistent : Consistent f) (pending : f.pending = true) :
    f.remoteClosed = false := by
  have sends := consistent.pending_sends pending
  rw [consistent.remoteClosed_eq]
  cases hp : f.phase <;> simp_all [Phase.sendsPayload, Phase.afterRemote]

theorem ensures_maybeSendFin_of_unfinished (unfinished : s.self.remoteClosed = false)
    (h : Q () s) : Ensures maybeSendFin s Q := by
  simpa [maybeSendFin, unfinished] using h

/-- Room on the way out is used for the packet that waits before anything else. -/
theorem ensures_pull (consistent : s.self.phase ≠ .closed → Consistent s.self)
    (idle : s.self.pending = false ∨ s.self.phase = .closed → Q () s)
    (retried : ∀ step out host,
      Path .other s [step]
        ⟨step.after, s.registry, s.self.afterOffer (!step.after.pending) out, host⟩ →
      ∀ steps t, Path .other
        ⟨step.after, s.registry, s.self.afterOffer (!step.after.pending) out, host⟩ steps t →
      Course .other s (step :: steps) t → Q () t) :
    Ensures pull s Q := by
  simp only [pull, ensures_bind, ensures_self]
  split
  · next still =>
    rw [Bool.or_eq_true, Bool.not_eq_true', isClosed, beq_iff_eq] at still
    exact (ensures_pure _).2 (idle still)
  next due =>
  simp only [Bool.or_eq_true, Bool.not_eq_true', not_or, Bool.not_eq_false, isClosed,
    beq_iff_eq] at due
  obtain ⟨pending, isOpen⟩ := due
  have finish {step : Step} {out : σ} {host : Host}
      (first : Path .other s [step]
        ⟨step.after, s.registry, s.self.afterOffer (!step.after.pending) out, host⟩)
      {steps : List Step} {t : Scene TcpFlow σ} (path : Path .other
        ⟨step.after, s.registry, s.self.afterOffer (!step.after.pending) out, host⟩ steps t)
      (downstream : Downstream (step :: steps)) (readOut : ReadOut (step :: steps) t.self) :
      Ensures updateInterest t Q := by
    refine ensures_updateInterest .other ?_
    intro more u hu
    exact retried _ _ _ first _ _ (path.append hu.path)
      ((Course.reading (first.append path) downstream readOut).append hu)
  simp only [ensures_bind, ensures_liftM, ensures_offer]
  intro packet latest taken out offered
  have move : Move .other ⟨s.self, s.registry, s.out⟩ (.retried ⟨packet, taken⟩) _ :=
    .retried isOpen pending latest offered
  have called := (Host.After.refl s.host).record
    (show (Event.offer packet.bytes taken).isCall = true from rfl)
  split
  · next ht =>
    subst ht
    have unfinished := (consistent isOpen).unfinished pending
    have first := Path.move move (called.note (.flow s.self.key .pendingAccepted))
    simp only [ensures_bind, ensures_say, ensures_modifySelf]
    refine ensures_maybeSendFin_of_unfinished unfinished (ensures_processReceive .other ?_)
    intro steps t path downstream readOut
    exact finish first path ((downstream_singleton rfl).append downstream) (readOut.append [_])
  · next ht =>
    obtain rfl : taken = false := by simpa using ht
    have called' := called.record (show (Event.await s.self.key).isCall = true from rfl)
    have first := Path.move move called'
    simp only [ensures_bind, ensures_await]
    have waiting : ({ s.self with pending := true } : TcpFlow) = s.self := by rw [← pending]
    refine waiting ▸ finish first (.quiet (.refl _)) (downstream_singleton rfl) fun may => ?_
    simp [mayRead] at may

theorem ensures_disconnect (h : ∀ steps t, Course .disconnect s steps t → Q () t) :
    Ensures close s Q := by
  by_cases closed : s.self.phase = .closed
  · exact ensures_close_of_closed closed (h _ _ (.quiet (.refl _)))
  · refine ensures_close closed ?_
    intro registration call host cancels called
    have move : Move .disconnect ⟨s.self, s.registry, s.out⟩ (.closed .disconnected call) _ :=
      .closed closed (.disconnected rfl) cancels
    exact h _ _ (.aside move called rfl)

end TcpFlow

end TunnelRelay
