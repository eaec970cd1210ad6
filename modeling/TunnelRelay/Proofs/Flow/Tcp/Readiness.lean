import TunnelRelay.Proofs.Flow.Tcp.GracefulClose
import TunnelRelay.Proofs.Flow.Tcp.Interest

/-!
# No readiness of a TCP flow is lost

The poller reports once that a socket became ready. So a flow must not stop where it could go on: what
it waits for is what the socket did not let it do the last time, and whatever lets it go on makes it try
at once. A flow that the device never confirmed, and that it finished all the same, is the one that may
read without having tried: its first interest in reading is news to the poller.
-/

namespace TunnelRelay

open Act

namespace Phase

/-- Whether the device has not confirmed the connection yet. -/
def isOpening : Phase → Bool
  | initial | synSent | synReceived => true
  | _ => false

theorem isOpening_eq_false_iff {phase : Phase} :
    phase.isOpening = false ↔ phase.isConnecting = false ∧ phase ≠ .synReceived := by
  cases phase <;> decide

theorem sendsPayload_of_deviceFinished {phase : Phase}
    (h : phase.deviceFinished.sendsPayload = true) : phase.deviceFinished = .closeWait ∧
      (phase = .synReceived ∨ phase.sendsPayload = true) := by
  cases phase <;> first | decide | cases h

end Phase

namespace TcpFlow

section

variable {f : TcpFlow}

theorem any_reads_wanted (h : f.mayRead = true) : f.wanted.any Interest.reads = true := by
  have connected : f.phase.isConnecting = false := by
    cases hp : f.phase <;> simp_all [mayRead, Phase.sendsPayload, Phase.isConnecting]
  rw [wanted, if_neg (by simp [connected]), Interest.any_reads_of?, h]

theorem any_writes_wanted (h : f.ring.isEmpty = false) : f.wanted.any Interest.writes = true := by
  unfold wanted
  split
  · rfl
  · rw [Interest.any_writes_of?, h]
    rfl

/-- A flow that is not confirmed does not wait for anything to read. -/
theorem any_reads_wanted_of_isOpening (h : f.phase.isOpening = true) :
    f.wanted.any Interest.reads = false := by
  unfold wanted
  split
  · rfl
  · have silent : f.mayRead = false := by
      cases hp : f.phase <;> simp_all [mayRead, Phase.sendsPayload, Phase.isOpening]
    rw [Interest.any_reads_of?, silent]

end

variable {σ : Type} [Outlet σ] {s t : Scene TcpFlow σ}

variable {stimulus : Stimulus} {f g : TcpFlow} {r r' : Registry} {out out' : σ} {mark : Mark}
  {journal steps : List Step}

/-- The poller is told by moves of their own. -/
theorem Move.polled_eq (move : Move stimulus ⟨f, r, out⟩ mark ⟨g, r', out'⟩)
    (isOpen : g.phase ≠ .closed) :
    Event.polled f.registration.interest (mark.calls f) = g.registration.interest := by
  cases move with
  | told _ _ => exact Event.polled_singleton (Registration.accepted?_pollerCall _)
  | closed _ _ _ => exact absurd rfl isOpen
  | connected _ emits | took _ _ _ _ _ _ emits | ended _ _ _ emits | widened _ _ _ emits =>
    exact (Event.polled_of_silent rfl).trans (congrArg _ emits.same.registration_eq.symm)
  | missed reads _ => exact (Event.polled_of_silent rfl).trans (congrArg _ reads.same.registration_eq.symm)
  | delivered reads _ _ _ _ _ =>
    refine (Event.polled_of_silent ?_).trans (congrArg _ reads.same.registration_eq.symm)
    simp only [Mark.calls]
    split <;> rfl
  | retried _ _ _ _ =>
    refine Event.polled_of_silent ?_
    simp only [Mark.calls]
    split <;> rfl
  | exhausted reads emits =>
    refine (Event.polled_of_silent rfl).trans (congrArg _ ?_)
    exact (emits.same.registration_eq.trans reads.same.registration_eq).symm
  | opened | reopened | unconnected | acknowledged | wrote | blocked | shut =>
    exact Event.polled_of_silent rfl

theorem Run.polled_eq (run : Run journal s) (isOpen : s.self.phase ≠ .closed) :
    s.self.registration.interest = Event.polled (some .writable) (calls journal) := by
  refine run.invariant (I := fun journal f => f.phase ≠ .closed →
    f.registration.interest = Event.polled (some .writable) (calls journal))
    (fun fresh _ => fresh.interest_eq) ?_ isOpen
  intro stimulus journal f g r r' out out' mark known move isOpen
  rw [calls_append, Event.polled_append, ← known move.isOpen, ← move.polled_eq isOpen]
  simp [calls]

/-- The device finished without ever having confirmed the connection. -/
def Unheard (steps : List Step) : Prop :=
  ∃ step ∈ steps, ∃ segment sent, step.mark = .ended segment sent ∧
    segment.flags.has .ack = false ∧ step.before.phase = .synReceived ∧
    step.after.phase = .closeWait

theorem Unheard.append {first second : List Step} (h : Unheard first) : Unheard (first ++ second) := by
  obtain ⟨step, listed, h⟩ := h
  exact ⟨step, List.mem_append_left _ listed, h⟩

theorem unheard_append {first second : List Step} (h : Unheard second) : Unheard (first ++ second) := by
  obtain ⟨step, listed, h⟩ := h
  exact ⟨step, List.mem_append_right _ listed, h⟩

theorem Reads.not_isOpening {size : Nat} (h : f.Reads size g) : f.phase.isOpening = false := by
  obtain ⟨sends, -, -⟩ := h.permitted
  cases hp : f.phase <;> simp_all [Phase.sendsPayload, Phase.isOpening]

/-- A connection that the device has confirmed stays so. -/
theorem Move.isOpening (move : Move stimulus ⟨f, r, out⟩ mark ⟨g, r', out'⟩)
    (opening : g.phase.isOpening = true) : f.phase.isOpening = true := by
  cases confirmed : f.phase.isOpening with
  | true => rfl
  | false =>
    obtain ⟨connected, answered⟩ := Phase.isOpening_eq_false_iff.1 confirmed
    rw [Phase.isOpening_eq_false_iff.2 ⟨move.stays_connected connected, fun unanswered =>
      answered (move.stays_confirmed connected unanswered)⟩] at opening
    cases opening

theorem Ends.unread {ending : Ending} {call : Option Event} (h : Ends stimulus f out ending g out')
    (aside : (Mark.closed ending call).isDownstream = false) :
    (ending.calls f.socket).filterMap Event.readResult? = [] := by
  cases h with
  | refused => exact List.filterMap_cons_none (Registration.readResult?_pollerCall _ _)
  | confirmed => cases aside
  | reset resets _ =>
    cases resets with
    | readError => cases aside
    | noRequest | request | connectError | noPeer | writeError => rfl
  | resetByDevice | finished | disconnected => rfl

/-- What is not part of the stream to the device reads nothing. -/
theorem Move.unread (move : Move stimulus ⟨f, r, out⟩ mark ⟨g, r', out'⟩)
    (aside : mark.isDownstream = false) : (mark.calls f).filterMap Event.readResult? = [] := by
  cases move with
  | told _ _ => exact List.filterMap_cons_none (Registration.readResult?_pollerCall _ _)
  | closed _ ends cancels =>
    rw [Mark.calls, List.filterMap_append, ends.unread aside]
    cases cancels <;> rfl
  | acknowledged | missed | delivered | retried | exhausted => cases aside
  | opened | reopened | unconnected | connected | took | ended | wrote | blocked | widened | shut =>
    rfl

/-- A connection that the device has not confirmed is not read. -/
theorem Move.unread_of_isOpening (move : Move stimulus ⟨f, r, out⟩ mark ⟨g, r', out'⟩)
    (opening : f.phase.isOpening = true) : (mark.calls f).filterMap Event.readResult? = [] := by
  have confirmed {size : Nat} {g : TcpFlow} (reads : f.Reads size g) : False :=
    Bool.false_ne_true (reads.not_isOpening.symm.trans opening)
  cases downstream : mark.isDownstream with
  | false => exact move.unread downstream
  | true =>
    cases move with
    | acknowledged => rfl
    | missed reads _ | delivered reads _ _ _ _ _ | exhausted reads _ => exact (confirmed reads).elim
    | retried =>
      simp only [Mark.calls]
      split <;> rfl
    | closed _ ends cancels =>
      cases ends with
      | confirmed => cases cancels <;> rfl
      | reset resets _ =>
        cases resets with
        | readError reads _ => exact (confirmed reads).elim
        | _ => cases downstream
      | _ => cases downstream
    | _ => cases downstream

theorem Emits.roomAtDevice_eq {flags : TcpFlags} {sent : Sent} (h : Emits flags f out sent g out') :
    g.roomAtDevice = f.roomAtDevice := by
  obtain ⟨reply, -, rfl⟩ := h.built
  rfl

theorem SameState.mayRead_eq (h : SameState f g) : g.mayRead = f.mayRead := by
  rw [mayRead, h.phase_eq, h.remoteClosed_eq, h.pending_eq, mayRead]

/-- Where the flow may read after the move it might have read before it. -/
def Lingers (f g : TcpFlow) : Prop :=
  g.mayRead = true → f.mayRead = true ∧ g.phase = f.phase ∧ g.roomAtDevice = f.roomAtDevice

theorem Emits.lingers {flags : TcpFlags} {sent : Sent} (h : Emits flags f out sent g out') :
    Lingers f g :=
  fun may => ⟨h.same.mayRead_eq ▸ may, h.same.phase_eq, h.roomAtDevice_eq⟩

theorem sendsPayload_of_mayRead (h : f.mayRead = true) : f.phase.sendsPayload = true := by
  simp only [mayRead, Bool.and_eq_true] at h
  exact h.1.1

/-- What is not part of the stream to the device, and not the end of that of the device, permits no
more to be read. -/
theorem Move.lingers (move : Move stimulus ⟨f, r, out⟩ mark ⟨g, r', out'⟩)
    (aside : mark.isDownstream = false) (noEnd : ∀ segment sent, mark ≠ .ended segment sent) :
    Lingers f g := by
  intro may
  have sends := sendsPayload_of_mayRead may
  cases move with
  | opened | closed => cases sends
  | connected _ emits =>
    exact absurd ((congrArg _ emits.same.phase_eq).symm.trans sends) Bool.false_ne_true
  | reopened _ phase _ => exact absurd ((congrArg _ phase).symm.trans sends) Bool.false_ne_true
  | took _ _ _ _ _ _ emits | widened _ _ _ emits => exact emits.lingers may
  | ended => exact absurd rfl (noEnd _ _)
  | acknowledged | missed | delivered | retried | exhausted => cases aside
  | unconnected | wrote | blocked | shut | told => exact ⟨may, rfl, rfl⟩

/-- The end of the stream of the device permits no more to be read either, unless the device has not
confirmed the connection. -/
theorem Move.lingers_of_ended {segment : Segment} {sent : Sent}
    (move : Move stimulus ⟨f, r, out⟩ (.ended segment sent) ⟨g, r', out'⟩) (may : g.mayRead = true) :
    g.phase = .closeWait ∧
      (f.phase = .synReceived ∨ f.mayRead = true ∧ g.roomAtDevice = f.roomAtDevice) := by
  cases move with
  | @ended _ g _ _ _ _ _ _ _ _ emits =>
    have phase : g.phase = f.phase := emits.same.phase_eq
    have still : g.remoteClosed = f.remoteClosed := emits.same.remoteClosed_eq
    have idle : g.pending = f.pending := emits.same.pending_eq
    simp only [mayRead, phase, still, idle, Bool.and_eq_true] at may ⊢
    obtain ⟨finished, before⟩ := Phase.sendsPayload_of_deviceFinished may.1.1
    exact ⟨finished, before.imp_right fun sends => ⟨⟨⟨sends, may.1.2⟩, may.2⟩, emits.roomAtDevice_eq⟩⟩

theorem Mark.leaves_reading (h : mark.isUpstream = true ∨ mark.isAside = true) :
    mark.isDownstream = false ∧ ∀ segment sent, mark ≠ .ended segment sent := by
  constructor
  · rcases h with upstream | aside
    · refine Bool.eq_false_iff.2 fun downstream => ?_
      exact absurd upstream (Mark.not_isUpstream_of_isDownstream downstream ▸ Bool.false_ne_true)
    · exact Mark.not_isDownstream_of_isAside aside
  · rintro _ _ rfl
    rcases h with ⟨⟨⟩⟩ | ⟨⟨⟩⟩

/-- Whatever there is to read was tried, unless the device has never confirmed the connection. -/
structure Attended (journal : List Step) (f : TcpFlow) : Prop where
  unread : f.phase.isOpening = true → lastRead journal = none
  readOut : f.mayRead = true → f.roomAtDevice ≠ 0 → lastRead journal = some (.error .wouldBlock) ∨
    lastRead journal = none ∧ f.phase = .closeWait ∧ Unheard journal

private theorem lastRead_concat_of_unread (silent : (mark.calls f).filterMap Event.readResult? = []) :
    lastRead (journal ++ [⟨f, mark, g⟩]) = lastRead journal := by
  simp [lastRead, calls, silent]

theorem Attended.aside (h : Attended journal f) (move : Move stimulus ⟨f, r, out⟩ mark ⟨g, r', out'⟩)
    (aside : mark.isDownstream = false) (noEnd : ∀ segment sent, mark ≠ .ended segment sent) :
    Attended (journal ++ [⟨f, mark, g⟩]) g := by
  have same : lastRead (journal ++ [⟨f, mark, g⟩]) = lastRead journal :=
    lastRead_concat_of_unread (move.unread aside)
  refine ⟨fun opening => ?_, fun may room => ?_⟩
  · rw [same, h.unread (move.isOpening opening)]
  · obtain ⟨may', phase, room'⟩ := move.lingers aside noEnd may
    rw [same, phase]
    refine (h.readOut may' (room' ▸ room)).imp_right ?_
    exact fun ⟨never, closeWait, unheard⟩ => ⟨never, closeWait, unheard.append⟩

theorem Attended.ended {segment : Segment} {sent : Sent} (h : Attended journal f)
    (move : Move stimulus ⟨f, r, out⟩ (.ended segment sent) ⟨g, r', out'⟩)
    (unconfirmed : f.phase = .synReceived → segment.flags.has .ack = false) :
    Attended (journal ++ [⟨f, .ended segment sent, g⟩]) g := by
  have same : lastRead (journal ++ [⟨f, .ended segment sent, g⟩]) = lastRead journal :=
    lastRead_concat_of_unread (move.unread rfl)
  refine ⟨fun opening => ?_, fun may room => ?_⟩
  · rw [same, h.unread (move.isOpening opening)]
  · obtain ⟨closeWait, unanswered | ⟨may', room'⟩⟩ := move.lingers_of_ended may
    · refine .inr ⟨?_, closeWait, unheard_append ?_⟩
      · rw [same, h.unread (by rw [unanswered]; rfl)]
      · exact ⟨_, List.mem_cons_self, segment, sent, rfl, unconfirmed unanswered, unanswered, closeWait⟩
    · rw [same]
      refine (h.readOut may' (room' ▸ room)).imp_right ?_
      exact fun ⟨never, _, unheard⟩ => ⟨never, closeWait, unheard.append⟩

theorem Course.attended (course : Course stimulus s steps t) (h : Attended journal s.self) :
    Attended (journal ++ steps) t.self := by
  induction course generalizing journal with
  | quiet => simpa using h
  | aside move _ aside =>
    obtain ⟨notDownstream, noEnd⟩ := Mark.leaves_reading (.inr aside)
    exact h.aside move notDownstream noEnd
  | reading path downstream readOut =>
    refine ⟨fun opening => ?_, fun may room => .inl (readOut.append journal may room)⟩
    exact path.invariant (I := fun journal f => f.phase.isOpening = true → lastRead journal = none)
      (fun before move opening => (lastRead_concat_of_unread (move.unread_of_isOpening
        (move.isOpening opening))).trans (before (move.isOpening opening))) journal h.unread opening
  | writing drains =>
    refine drains.path.invariant_of (p := fun step => step.mark.isUpstream = true ∨
      step.mark.isAside = true) (fun before move kind => ?_) drains.upstream journal h
    obtain ⟨notDownstream, noEnd⟩ := Mark.leaves_reading kind
    exact before.aside move notDownstream noEnd
  | ending move _ unconfirmed _ _ ih =>
    rw [← List.singleton_append, ← List.append_assoc]
    exact ih (h.ended move unconfirmed)
  | append _ _ ih ih' =>
    rw [← List.append_assoc]
    exact ih' (ih h)

-- A path that notes the end of an unconfirmed connection reacts to a segment without confirmation,
-- and starts unconfirmed.
private theorem Path.of_unheard (path : Path stimulus s steps t) (unheard : Unheard steps) :
    s.self.phase.isOpening = true ∧
      ∃ segment, stimulus = .segment segment ∧ segment.flags.has .ack = false := by
  have all := path.invariant (I := fun steps f =>
    (f.phase.isOpening = true → s.self.phase.isOpening = true) ∧ (Unheard steps →
      s.self.phase.isOpening = true ∧
        ∃ segment, stimulus = .segment segment ∧ segment.flags.has .ack = false)) ?_ []
    ⟨id, fun ⟨_, listed, _⟩ => absurd listed List.not_mem_nil⟩
  · exact all.2 unheard
  intro journal f g r r' out out' mark ⟨opening, unheard⟩ move
  refine ⟨fun stillOpening => opening (move.isOpening stillOpening), ?_⟩
  rintro ⟨step, listed, segment, sent, ended, unconfirmed, before, after⟩
  rcases List.mem_append.1 listed with earlier | last
  · exact unheard ⟨step, earlier, segment, sent, ended, unconfirmed, before, after⟩
  · rw [List.mem_singleton] at last
    subst last ended
    refine ⟨opening ((congrArg _ before).trans rfl), segment, ?_, unconfirmed⟩
    cases move with
    | ended received _ _ _ => exact received

private theorem Move.of_isOpening (move : Move stimulus ⟨f, r, out⟩ mark ⟨g, r', out'⟩)
    (opening : f.phase.isOpening = true)
    (unconfirmed : ∀ segment, stimulus = .segment segment → segment.flags.has .ack = false) :
    g.phase.isOpening = true ∨ g.phase = .closed ∨ Unheard [⟨f, mark, g⟩] := by
  have confirmed {size : Nat} {h : TcpFlow} (reads : f.Reads size h) : False :=
    Bool.false_ne_true (reads.not_isOpening.symm.trans opening)
  cases move with
  | opened => exact .inl rfl
  | connected _ emits => exact .inl ((congrArg _ emits.same.phase_eq).trans rfl)
  | acknowledged received _ ack _ =>
    rw [unconfirmed _ received] at ack
    cases ack
  | @ended _ g _ _ _ segment received atEnd _ sent emits =>
    have unanswered : f.phase = .synReceived := by
      have connected := atEnd.connected
      cases hp : f.phase <;> simp_all [Phase.isConnecting, Phase.isOpening]
    have phase : g.phase = f.phase := emits.same.phase_eq
    refine .inr (.inr ⟨_, List.mem_cons_self, segment, sent, rfl, unconfirmed _ received, unanswered, ?_⟩)
    simp only [phase, unanswered, Phase.deviceFinished]
  | took _ _ _ _ _ _ emits | widened _ _ _ emits =>
    exact .inl ((congrArg _ emits.same.phase_eq).trans opening)
  | missed reads _ | delivered reads _ _ _ _ _ | exhausted reads _ => exact (confirmed reads).elim
  | closed => exact .inr (.inl rfl)
  | reopened | unconnected | retried | wrote | blocked | shut | told => exact .inl opening

private theorem Path.unheard (path : Path stimulus s steps t) (opening : s.self.phase.isOpening = true)
    (unconfirmed : ∀ segment, stimulus = .segment segment → segment.flags.has .ack = false)
    (finished : t.self.phase = .closeWait) : Unheard steps := by
  have all := path.invariant (I := fun steps f => f.phase.isOpening = true ∨ f.phase = .closed ∨
    Unheard steps) ?_ [] (.inl opening)
  · simpa [finished, Phase.isOpening] using all
  · rintro journal f g r r' out out' mark (opening | closed | unheard) move
    · exact (move.of_isOpening opening unconfirmed).imp_right (.imp_right unheard_append)
    · exact absurd closed move.isOpen
    · exact .inr (.inr unheard.append)

theorem Fresh.attended (fresh : Fresh f) : Attended [] f where
  unread _ := rfl
  readOut may := by
    have sends := sendsPayload_of_mayRead may
    rw [fresh.phase_eq] at sends
    cases sends

theorem Run.attended (run : Run journal s) : Attended journal s.self := by
  refine run.at_rest_of_path Fresh.attended ?_
  intro stimulus journal steps steps' s t _ path course same before
  have after := course.attended before
  have last : lastRead (journal ++ steps) = lastRead (journal ++ steps') := by
    simp only [lastRead, calls_append, same]
  refine ⟨fun opening => last.trans (after.unread opening), fun may room => ?_⟩
  rw [last]
  refine (after.readOut may room).imp_right ?_
  rintro ⟨never, finished, unheard⟩
  refine ⟨never, finished, ?_⟩
  -- The moves of the run end the connection by the same segment.
  obtain ⟨step, listed, unheard⟩ := unheard
  rcases List.mem_append.1 listed with earlier | later
  · exact Unheard.append ⟨step, earlier, unheard⟩
  · obtain ⟨opening, segment, rfl, unconfirmed⟩ := course.path.of_unheard ⟨step, later, unheard⟩
    refine unheard_append (path.unheard opening ?_ finished)
    rintro _ ⟨⟩
    exact unconfirmed

/-- What a flow waits for is what the socket did not let it do the last time. -/
structure Attentive (journal : List Step) (f : TcpFlow) : Prop where
  /-- The flow knows what the poller knows. -/
  interest_eq : f.registration.interest = Event.polled (some .writable) (calls journal)
  writes : f.ring.isEmpty = false → lastWrite journal = some (.error .wouldBlock) ∧
    f.registration.interest.any Interest.writes = true
  reads : f.mayRead = true → f.roomAtDevice ≠ 0 →
    f.registration.interest.any Interest.reads = true ∧
      (lastRead journal = some (.error .wouldBlock) ∨
        lastRead journal = none ∧ f.phase = .closeWait ∧ Unheard journal)

theorem Run.attentive (run : Run journal s) (isOpen : s.self.phase ≠ .closed) :
    Attentive journal s.self where
  interest_eq := run.polled_eq isOpen
  writes waiting := by
    obtain ⟨result, last, refused⟩ := run.settled.resolve_left (by simp [waiting])
    rw [run.registered isOpen, any_writes_wanted waiting]
    exact ⟨run.blocked_of_refused isOpen last refused ▸ last, rfl⟩
  reads may room := by
    rw [run.registered isOpen, any_reads_wanted may]
    exact ⟨rfl, run.attended.readOut may room⟩

/-- A flow that was never read holds no packet back. -/
theorem Run.idle_of_unread (run : Run journal s) (isOpen : s.self.phase ≠ .closed)
    (never : lastRead journal = none) : s.self.pending = false := by
  refine run.invariant (I := fun journal f => f.phase ≠ .closed → lastRead journal = none →
    f.pending = false) (fun fresh _ _ => fresh.pending_eq) ?_ isOpen never
  intro stimulus journal f g r r' out out' mark before move isOpen never
  rw [lastRead_append, Option.or_eq_none_iff] at never
  have idle := before move.isOpen never.2
  cases move with
  | connected _ emits | took _ _ _ _ _ _ emits | ended _ _ _ emits | widened _ _ _ emits =>
    exact emits.same.pending_eq.trans idle
  | retried _ pending _ _ => exact absurd (idle.symm.trans pending) Bool.false_ne_true
  | missed | exhausted => cases never.1
  | @delivered _ _ _ _ _ _ _ _ _ _ _ _ sent =>
    obtain ⟨packet, taken⟩ := sent
    cases taken <;> cases never.1
  | closed => exact absurd rfl isOpen
  | opened | reopened | unconnected | acknowledged | wrote | blocked | shut | told => exact idle

/-- A flow that the device finishes before it was confirmed, and that was not read, comes to wait for
something to read by that very operation. -/
theorem Run.first_reads (run : Run journal s) {operation : Operation}
    (performed : operation.perform s = .ok ((), t)) (opening : s.self.phase.isOpening = true)
    (finished : t.self.phase = .closeWait) : ∃ steps, Run (journal ++ steps) t ∧
      t.host.calls = (calls steps).reverse ++ s.host.calls ∧
      (lastRead steps = none → s.self.registration.interest.any Interest.reads = false ∧
        ∃ e ∈ calls steps, ∃ interest, e.accepted? = some (some interest) ∧ interest.reads = true) := by
  obtain ⟨steps, path, run', called⟩ := run.continues operation t performed
  refine ⟨steps, run', called, fun never => ?_⟩
  have isOpen : s.self.phase ≠ .closed := by
    intro closed
    rw [closed] at opening
    cases opening
  have isOpen' : t.self.phase ≠ .closed := by simp [finished]
  have unread : lastRead (journal ++ steps) = none := by
    rw [lastRead_append, never, run.attended.unread opening]
    rfl
  have may : t.self.mayRead = true := by
    rw [mayRead, (run'.consistent isOpen').remoteClosed_eq, run'.idle_of_unread isOpen' unread,
      finished]
    rfl
  have before : s.self.registration.interest.any Interest.reads = false := by
    rw [run.registered isOpen, any_reads_wanted_of_isOpening opening]
  have after : t.self.registration.interest.any Interest.reads = true := by
    rw [run'.registered isOpen', any_reads_wanted may]
  refine ⟨before, ?_⟩
  rw [run'.polled_eq isOpen', calls_append, Event.polled_append, ← run.polled_eq isOpen] at after
  obtain ⟨e, listed, told⟩ := Event.exists_accepted?_of_polled_ne fun same => by
    rw [same, before] at after
    cases after
  obtain ⟨interest, wanted, reads⟩ := (Option.any_eq_true ..).1 after
  exact ⟨e, listed, interest, told.trans (congrArg some wanted), reads⟩

end TcpFlow

end TunnelRelay
