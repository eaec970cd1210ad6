import TunnelRelay.Proofs.Flow.Udp.Run
import TunnelRelay.Proofs.Flow.Udp.Turn

/-!
# No readiness of a UDP flow is lost

The poller reports once that a socket became ready. What a UDP flow waits for is what the socket did not
let it do the last time, and when the packet that waited for room is taken the socket is read at once.
-/

namespace TunnelRelay

open Act

namespace UdpFlow

def Registered (f : UdpFlow) : Prop := f.closed = false → f.registration.interest = f.wanted

/-- Nothing has changed that matters for what a flow waits for. -/
structure Unmoved (f g : UdpFlow) : Prop where
  registration_eq : g.registration = f.registration
  wanted_eq : g.wanted = f.wanted
  closed_eq : g.closed = f.closed

theorem Unmoved.refl (f : UdpFlow) : Unmoved f f := ⟨rfl, rfl, rfl⟩

theorem Registered.of_unmoved {f g : UdpFlow} (h : Registered f) (unmoved : Unmoved f g) :
    Registered g := by
  intro isOpen
  rw [unmoved.registration_eq, unmoved.wanted_eq]
  exact h (unmoved.closed_eq.symm.trans isOpen)

section

variable {σ : Type} {s : Scene UdpFlow σ}

theorem registered_of_updateInterest (s : Scene UdpFlow σ) :
    Ensures updateInterest s fun _ t => Registered t.self := by
  simp only [updateInterest, ensures_bind, ensures_self]
  split
  · next closed =>
    exact (ensures_pure _).2 fun isOpen => absurd (closed.symm.trans isOpen) Bool.noConfusion
  next isOpen =>
  rw [ensures_bind]
  apply Registration.ensures_update
  · exact fun same => (ensures_modifySelf _).2 fun _ => same
  · exact fun _ _ _ => (ensures_modifySelf _).2 fun _ => rfl
  · intro _ kind host _
    simp only [ensures_bind, ensures_say]
    exact ensures_disconnect_of_open (by simpa using isOpen) (by rintro _ _ _ _ _ ⟨⟩)

/-- Every operation ends by telling the poller, unless there is nothing to tell. -/
theorem registered_of_perform [Outlet σ] (operation : Operation) (s : Scene UdpFlow σ) :
    Ensures operation.perform s fun _ t => Unmoved s.self t.self ∨ Registered t.self := by
  have told (t : Scene UdpFlow σ) : Ensures updateInterest t fun _ u =>
      Unmoved s.self u.self ∨ Registered u.self :=
    (registered_of_updateInterest t).mono fun _ _ => .inr
  cases operation with
  | receive packet =>
    simp only [Operation.perform, receive, ensures_bind, ensures_self]
    split
    · exact (ensures_pure _).2 (.inl (.refl _))
    simp only [ensures_bind, ensures_liftM]
    intro found _
    split
    · exact (ensures_pure _).2 (.inl (.refl _))
    simp only [ensures_bind, ensures_touch, ensures_self, ensures_liftM, ensures_modifySelf]
    rintro ⟨stored, ring⟩ pushed
    cases stored with
    | true => exact (ensures_bind ..).2 fun _ t _ => told t
    | false =>
      rw [DatagramRing.eq_of_push pushed]
      exact (ensures_say _).2 (.inl ⟨rfl, rfl, rfl⟩)
  | ready readiness =>
    simp only [Operation.perform, onReady, ensures_bind, ensures_self]
    have readOut (t : Scene UdpFlow σ) : Ensures (do
        if readiness.readable then
          processReceive
        updateInterest) t fun _ u => Unmoved s.self u.self ∨ Registered u.self := by
      split
      · exact (ensures_bind ..).2 fun _ t _ => told t
      · exact told t
    split
    · exact (ensures_pure _).2 (.inl (.refl _))
    · split
      · exact (ensures_bind ..).2 fun _ t _ => readOut t
      · exact readOut s
  | pull =>
    simp only [Operation.perform, pull, ensures_bind, ensures_self]
    split
    · exact (ensures_pure _).2 (.inl (.refl _))
    · simp only [ensures_bind, ensures_liftM]
      intro packet _ taken t _
      split
      · simp only [ensures_bind, ensures_modifySelf]
        exact fun _ _ _ => told _
      · exact (ensures_bind ..).2 fun _ t _ => told t
  | disconnect =>
    cases closed : s.self.closed with
    | true =>
      simp only [Operation.perform, disconnect, ensures_bind, ensures_self, if_pos closed, ensures_pure]
      exact .inl (.refl _)
    | false => exact ensures_disconnect_of_open closed fun _ _ _ _ _ => .inr (by rintro ⟨⟩)

end

variable {σ : Type} [Outlet σ] {stimulus : Stimulus} {now : Nat} {f g : UdpFlow} {r r' : Registry}
  {out out' : σ} {mark : Mark} {journal steps : List Step} {s t : Scene UdpFlow σ}

theorem Run.registered (run : Run journal s) : Registered s.self := by
  induction run with
  | start parsed started =>
    intro _
    have fresh := fresh_of_start parsed started
    rw [fresh.interest_eq, wanted, fresh.pending_eq, fresh.empty.isEmpty_eq]
    rfl
  | world _ _ _ _ ih => exact ih
  | act _ performed _ ih =>
    rcases registered_of_perform _ _ _ _ performed with unmoved | registered
    · exact ih.of_unmoved unmoved
    · exact registered

/-- The poller is told by moves of their own. -/
theorem Move.polled_eq (move : Move stimulus now ⟨f, r, out⟩ mark ⟨g, r', out'⟩)
    (isOpen : g.closed = false) :
    Event.polled f.registration.interest (mark.calls f) = g.registration.interest := by
  cases move with
  | told _ _ => exact Event.polled_singleton (Registration.accepted?_pollerCall _)
  | closed _ _ _ => cases isOpen
  | delivered | retried =>
    refine Event.polled_of_silent ?_
    simp only [Mark.calls]
    split <;> rfl
  | stored | dropped | forwarded | unsent | missed => exact Event.polled_of_silent rfl

theorem Run.polled_eq (run : Run journal s) (isOpen : s.self.closed = false) :
    s.self.registration.interest = Event.polled (some .readable) (calls journal) := by
  refine run.invariant (I := fun journal f => f.closed = false →
    f.registration.interest = Event.polled (some .readable) (calls journal))
    (fun fresh _ => fresh.interest_eq) ?_ isOpen
  intro stimulus now journal f g r r' out out' mark known move isOpen
  rw [calls_append, Event.polled_append, ← known move.isOpen, ← move.polled_eq isOpen]
  simp [calls]

/-- What does not belong to the datagrams of the device sends nothing and leaves the ring alone. -/
theorem Move.unsent_of_not_isUpstream (move : Move stimulus now ⟨f, r, out⟩ mark ⟨g, r', out'⟩)
    (aside : mark.isUpstream = false) :
    (mark.calls f).filterMap Event.sendResult? = [] ∧ g.ring = f.ring := by
  cases move with
  | stored | forwarded | unsent => cases aside
  | dropped _ _ pushed => exact ⟨rfl, DatagramRing.eq_of_push pushed⟩
  | delivered | retried =>
    refine ⟨?_, rfl⟩
    simp only [Mark.calls]
    split <;> rfl
  | told => exact ⟨List.filterMap_cons_none (Registration.sendResult?_pollerCall _ _), rfl⟩
  | closed _ ends cancels =>
    rw [Mark.calls, List.filterMap_append, cancels.silent fun _ => rfl, List.append_nil]
    cases ends with
    | sendError => cases aside
    | refused => exact ⟨List.filterMap_cons_none (Registration.sendResult?_pollerCall _ _), rfl⟩
    | receiveError | disconnected => exact ⟨rfl, rfl⟩
  | missed => exact ⟨rfl, rfl⟩

/-- What does not belong to the datagrams for the device receives nothing and lets no packet wait. -/
theorem Move.unreceived_of_not_isDownstream
    (move : Move stimulus now ⟨f, r, out⟩ mark ⟨g, r', out'⟩) (aside : mark.isDownstream = false) :
    (mark.calls f).filterMap Event.receiveResult? = [] ∧ g.pending = f.pending := by
  cases move with
  | missed | delivered | retried => cases aside
  | told => exact ⟨List.filterMap_cons_none (Registration.receiveResult?_pollerCall _ _), rfl⟩
  | closed _ ends cancels =>
    rw [Mark.calls, List.filterMap_append, cancels.silent fun _ => rfl, List.append_nil]
    cases ends with
    | receiveError => cases aside
    | refused => exact ⟨List.filterMap_cons_none (Registration.receiveResult?_pollerCall _ _), rfl⟩
    | sendError | disconnected => exact ⟨rfl, rfl⟩
  | stored | dropped | forwarded | unsent => exact ⟨rfl, rfl⟩

theorem Settled.of_not_isUpstream (h : Settled journal f)
    (move : Move stimulus now ⟨f, r, out⟩ mark ⟨g, r', out'⟩) (aside : mark.isUpstream = false) :
    Settled (journal ++ [⟨f, mark, g⟩]) g := by
  obtain ⟨silent, ring⟩ := move.unsent_of_not_isUpstream aside
  have none : lastSend [⟨f, mark, g⟩] = none := by simp [lastSend, calls, silent]
  intro _ waiting
  rw [lastSend_append, none]
  exact h move.isOpen (ring ▸ waiting)

/-- All that there is to receive was received, or nothing ever was. -/
def Rested (journal : List Step) (f : UdpFlow) : Prop :=
  f.closed = false → f.pending = false →
    lastReceive journal = some (.error .wouldBlock) ∨ lastReceive journal = none

theorem Rested.of_not_isDownstream (h : Rested journal f)
    (move : Move stimulus now ⟨f, r, out⟩ mark ⟨g, r', out'⟩) (aside : mark.isDownstream = false) :
    Rested (journal ++ [⟨f, mark, g⟩]) g := by
  obtain ⟨silent, pending⟩ := move.unreceived_of_not_isDownstream aside
  have none : lastReceive [⟨f, mark, g⟩] = none := by simp [lastReceive, calls, silent]
  intro _ idle
  rw [lastReceive_append, none]
  exact h move.isOpen (pending ▸ idle)

theorem Mark.not_isUpstream_of_isDownstream (h : mark.isDownstream = true) :
    mark.isUpstream = false := by
  cases mark with
  | closed ending call => cases ending <;> first | rfl | cases h
  | _ => first | rfl | cases h

theorem Mark.not_isDownstream_of_isUpstream (h : mark.isUpstream = true) :
    mark.isDownstream = false :=
  Bool.eq_false_iff.2 fun downstream =>
    Bool.false_ne_true ((Mark.not_isUpstream_of_isDownstream downstream).symm.trans h)

theorem Passage.settled (h : Passage stimulus s steps t) (hs : Settled journal s.self) :
    Settled (journal ++ steps) t.self := by
  induction h generalizing journal with
  | quiet => simpa using hs
  | aside move _ notUp _ => exact hs.of_not_isUpstream move notUp
  | receiving path downstream _ =>
    refine path.invariant_of (p := fun step => step.mark.isUpstream = false)
      Settled.of_not_isUpstream ?_ journal hs
    exact fun step listed => Mark.not_isUpstream_of_isDownstream (downstream step listed)
  | sending _ _ settled => exact settled.append _
  | append _ _ ih ih' =>
    rw [← List.append_assoc]
    exact ih' (ih hs)

theorem Passage.rested (h : Passage stimulus s steps t) (hs : Rested journal s.self) :
    Rested (journal ++ steps) t.self := by
  induction h generalizing journal with
  | quiet => simpa using hs
  | aside move _ _ notDown => exact hs.of_not_isDownstream move notDown
  | receiving _ _ readOut => exact fun isOpen idle => .inl (readOut.append journal isOpen idle)
  | sending path upstream _ =>
    refine path.invariant_of (p := fun step => step.mark.isDownstream = false)
      Rested.of_not_isDownstream ?_ journal hs
    exact fun step listed => Mark.not_isDownstream_of_isUpstream (upstream step listed)
  | append _ _ ih ih' =>
    rw [← List.append_assoc]
    exact ih' (ih hs)

theorem Run.settled (run : Run journal s) : Settled journal s.self := by
  refine run.at_rest (I := fun events f => f.closed = false → f.ring.isEmpty = false →
    (events.filterMap Event.sendResult?).getLast? = some (.error .wouldBlock))
    (fun fresh _ waiting => ?_) fun passage => passage.settled
  rw [fresh.empty.isEmpty_eq] at waiting
  cases waiting

theorem Run.rested (run : Run journal s) : Rested journal s.self :=
  run.at_rest (I := fun events f => f.closed = false → f.pending = false →
    (events.filterMap Event.receiveResult?).getLast? = some (.error .wouldBlock) ∨
      (events.filterMap Event.receiveResult?).getLast? = none)
    (fun _ _ _ => .inr rfl) fun passage => passage.rested

structure Attentive (journal : List Step) (f : UdpFlow) : Prop where
  /-- The flow knows what the poller knows. -/
  interest_eq : f.registration.interest = Event.polled (some .readable) (calls journal)
  writes : f.ring.isEmpty = false → lastSend journal = some (.error .wouldBlock) ∧
    f.registration.interest.any Interest.writes = true
  reads : f.pending = false → f.registration.interest.any Interest.reads = true ∧
    (lastReceive journal = some (.error .wouldBlock) ∨ lastReceive journal = none)

theorem Run.attentive (run : Run journal s) (isOpen : s.self.closed = false) :
    Attentive journal s.self where
  interest_eq := run.polled_eq isOpen
  writes waiting := by
    rw [run.registered isOpen, wanted, Interest.any_writes_of?, waiting]
    exact ⟨run.settled isOpen waiting, rfl⟩
  reads idle := by
    rw [run.registered isOpen, wanted, Interest.any_reads_of?, idle]
    exact ⟨rfl, run.rested isOpen idle⟩

/-- A packet that waits was made of the datagram that was received last. -/
theorem Run.received_of_pending (run : Run journal s) (pending : s.self.pending = true) :
    ∃ datagram, lastReceive journal = some (.ok datagram) := by
  refine run.invariant (I := fun journal f => f.pending = true →
    ∃ datagram, lastReceive journal = some (.ok datagram)) (fun fresh pending => ?_) ?_ pending
  · rw [fresh.pending_eq] at pending
    cases pending
  intro stimulus now journal f g r r' out out' mark before move pending
  cases aside : mark.isDownstream with
  | false =>
    obtain ⟨silent, same⟩ := move.unreceived_of_not_isDownstream aside
    obtain ⟨datagram, last⟩ := before (same ▸ pending)
    exact ⟨datagram, by simpa [lastReceive, calls, silent] using last⟩
  | true =>
    cases move with
    | missed receives _ => exact absurd (receives.idle.symm.trans pending) Bool.false_ne_true
    | @delivered _ _ _ _ _ _ _ datagram _ _ sent _ _ _ =>
      obtain ⟨packet, taken⟩ := sent
      refine ⟨datagram, ?_⟩
      rw [lastReceive_append]
      cases taken <;> rfl
    | @retried _ _ _ _ _ waited sent _ _ =>
      obtain ⟨packet, taken⟩ := sent
      obtain ⟨datagram, last⟩ := before waited
      refine ⟨datagram, ?_⟩
      rw [lastReceive_append, last]
      cases taken <;> rfl
    | closed _ ends _ =>
      cases ends with
      | receiveError receives _ => exact absurd (receives.idle.symm.trans pending) Bool.false_ne_true
      | _ => cases aside
    | _ => cases aside

/-- A packet that waits no more was taken. -/
theorem Path.exists_cleared (path : Path stimulus s steps t) (pending : s.self.pending = true)
    (idle : t.self.pending = false) : ∃ step ∈ steps, step.after.pending = false := by
  refine (path.invariant (I := fun steps f => f.pending = true ∨
    ∃ step ∈ steps, step.after.pending = false) ?_ [] (.inl pending)).resolve_left (by simp [idle])
  intro now journal f g r r' out out' mark _ move
  cases waits : g.pending with
  | true => exact .inl rfl
  | false => exact .inr ⟨⟨f, mark, g⟩, List.mem_append_right _ List.mem_cons_self, waits⟩

/-- A packet that is refused waits. -/
def Refuses (steps : List Step) : Prop :=
  ∃ step ∈ steps, ∃ size datagram packet, step.mark = .delivered size datagram ⟨packet, false⟩

/-- Only a packet that is refused lets a flow wait. -/
theorem Move.refuses (move : Move stimulus now ⟨f, r, out⟩ mark ⟨g, r', out'⟩)
    (idle : f.pending = false) (pending : g.pending = true) : Refuses [⟨f, mark, g⟩] := by
  cases move with
  | @delivered _ _ _ _ size _ _ datagram _ _ sent _ _ _ =>
    obtain ⟨packet, taken⟩ := sent
    obtain rfl : taken = false := by simpa using pending
    exact ⟨_, List.mem_cons_self, size, datagram, packet, rfl⟩
  | retried _ waited _ _ => exact absurd (idle.symm.trans waited) Bool.false_ne_true
  | closed _ ends _ =>
    have same : _ = f.pending := ends.pending_eq
    exact absurd ((same.trans idle).symm.trans pending) Bool.false_ne_true
  | stored | dropped | forwarded | unsent | missed | told =>
    exact absurd (idle.symm.trans pending) Bool.false_ne_true

/-- A packet that waits after another one was taken was refused since. -/
theorem Path.refuses (path : Path stimulus s steps t)
    (cleared : ∃ step ∈ steps, step.after.pending = false) (pending : t.self.pending = true) :
    Refuses steps := by
  refine path.invariant (I := fun steps f => (∃ step ∈ steps, step.after.pending = false) →
    f.pending = true → Refuses steps) ?_ [] ?_ cleared pending
  · rintro now journal f g r r' out out' mark before move ⟨step, listed, taken⟩ pending
    cases waited : f.pending with
    | false =>
      obtain ⟨refused, last, h⟩ := move.refuses waited pending
      exact ⟨refused, List.mem_append_right _ last, h⟩
    | true =>
      rcases List.mem_append.1 listed with earlier | last
      · obtain ⟨refused, listed', h⟩ := before ⟨step, earlier, taken⟩ waited
        exact ⟨refused, List.mem_append_left _ listed', h⟩
      · rw [List.mem_singleton.1 last] at taken
        exact absurd (taken.symm.trans pending) Bool.false_ne_true
  · rintro ⟨_, listed, -⟩
    cases listed

/-- When the packet that waited is taken, the socket is read until there is nothing for now, another
packet is refused, or the flow ends. -/
theorem Run.reads_of_cleared (run : Run journal s) {operation : Operation}
    (performed : operation.perform s = .ok ((), t)) (pending : s.self.pending = true) :
    ∃ steps, Course operation s steps t ∧ Run (journal ++ steps) t ∧
      t.host.calls = (calls steps).reverse ++ s.host.calls ∧
      ((∃ step ∈ steps, step.after.pending = false) → t.self.closed = true ∨
        t.self.pending = true ∧ Refuses steps ∨
          lastReceive steps = some (.error .wouldBlock)) := by
  obtain ⟨steps, course, run', called⟩ := run.continues operation t performed
  refine ⟨steps, course, run', called, fun cleared => ?_⟩
  cases closed : t.self.closed with
  | true => exact .inl rfl
  | false =>
    refine .inr ?_
    cases waits : t.self.pending with
    | true => exact .inl ⟨rfl, course.path.refuses cleared waits⟩
    | false =>
      obtain ⟨datagram, last⟩ := run.received_of_pending pending
      have rested := run'.rested closed waits
      rw [lastReceive_append, last] at rested
      cases received : lastReceive steps with
      | none => simp [received] at rested
      | some result => simpa [received] using rested

end UdpFlow

end TunnelRelay
