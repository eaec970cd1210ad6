import TunnelRelay.Proofs.Flow.Tcp.Conversation
import TunnelRelay.Proofs.Flow.Tcp.Turn

/-!
# A window that was closed is opened again

A device that was granted no window does not send, and nothing wakes it but a packet that grants one. If
the way out takes every packet, the last packet that it took grants no window only while the ring is
full: whatever makes room in a full ring tells the device in the same operation.
-/

namespace TunnelRelay

namespace TcpFlow

/-- Every packet that was offered was taken. -/
def TakesAll (events : List Event) : Prop :=
  ∀ packet taken, .offer packet taken ∈ events → taken = true

theorem takesAll_append {first second : List Event} :
    TakesAll (first ++ second) ↔ TakesAll first ∧ TakesAll second := by
  constructor
  · intro h
    exact ⟨fun packet taken mem => h packet taken (List.mem_append_left _ mem),
      fun packet taken mem => h packet taken (List.mem_append_right _ mem)⟩
  · rintro ⟨h, h'⟩ packet taken mem
    exact (List.mem_append.1 mem).elim (h packet taken) (h' packet taken)

variable {σ : Type} [Outlet σ] {stimulus : Stimulus} {f g : TcpFlow} {r r' : Registry}
  {out out' : σ} {mark : Mark} {journal pre steps : List Step} {step : Step} {sent : Sent}
  {s t : Scene TcpFlow σ} {flags : TcpFlags} {events : List Event}

/-- The window that a packet grants is the one that the flow remembers, and was its room. -/
structure Grants (g : TcpFlow) (sent : Sent) : Prop where
  read_eq : ∃ segment, Segment.ofBytes sent.packet.bytes = .ok (some segment) ∧
    segment.window = g.advertised
  advertised_eq : g.advertised = g.windowToGrant.toUInt16

private theorem Emits.grants (h : Emits flags f out sent g out') (hf : Healthy f) :
    Grants g sent := by
  refine ⟨⟨_, h.read_eq hf, ?_⟩, h.advertised_eq⟩
  obtain ⟨reply, -, rfl⟩ := h.built
  rfl

/-- Every packet that is built grants the room that there is. -/
theorem Move.grants (hf : Healthy f) (move : Move stimulus ⟨f, r, out⟩ mark ⟨g, r', out'⟩)
    (built : mark.built? = some sent) : Grants g sent := by
  have plain := hf.plain
  have protocol := hf.protocol_eq
  cases move with
  | connected _ emits =>
    cases built
    obtain ⟨read, room⟩ := emits.grants ⟨hf.sound, plain, protocol⟩
    exact ⟨read, room⟩
  | took _ _ _ _ _ pushed emits =>
    cases built
    exact emits.grants ⟨hf.sound.push pushed, plain, protocol⟩
  | ended _ _ _ emits =>
    cases built
    obtain ⟨read, room⟩ := emits.grants ⟨hf.sound, plain, protocol⟩
    exact ⟨read, room⟩
  | delivered reads _ _ committed completed _ =>
    cases built
    refine ⟨⟨_, reads.read_eq hf committed completed, ?_⟩, reads.advertised_eq⟩
    obtain ⟨reply, -, rfl⟩ := reads.started
    rfl
  | exhausted reads emits =>
    cases built
    have hg := reads.healthy hf
    obtain ⟨read, room⟩ := emits.grants ⟨hg.sound, hg.plain, hg.protocol_eq⟩
    exact ⟨read, room⟩
  | widened _ _ _ emits =>
    cases built
    exact emits.grants hf
  | closed _ ends _ =>
    cases ends with
    | finished _ _ _ emits =>
      cases built
      obtain ⟨read, room⟩ := emits.grants ⟨hf.sound, plain, protocol⟩
      exact ⟨read, room⟩
    | reset resets emits =>
      cases built
      obtain ⟨read, room⟩ := emits.grants (resets.healthy hf)
      exact ⟨read, room⟩
    | _ => cases built
  | _ => cases built

/-- A move that builds no packet leaves the remembered window alone, unless it prepares one. -/
theorem Move.advertised_cases (move : Move stimulus ⟨f, r, out⟩ mark ⟨g, r', out'⟩)
    (built : mark.built? = none) :
    g.advertised = f.advertised ∨
      (∃ size kind, mark = .missed size kind) ∧ g.advertised = f.windowToGrant.toUInt16 := by
  cases move with
  | missed reads _ =>
    refine .inr ⟨⟨_, _, rfl⟩, ?_⟩
    obtain ⟨reply, -, rfl⟩ := reads.started
    rfl
  | closed _ ends _ => cases ends <;> first | exact .inl rfl | cases built
  | _ => first | exact .inl rfl | cases built

theorem posted_filter (events : List Event) :
    Event.posted (events.filter Event.isOffer) = Event.posted events := by
  induction events with
  | nil => rfl
  | cons event rest ih =>
    cases offer : event.isOffer with
    | true =>
      rw [List.filter_cons_of_pos offer, Event.posted, Event.posted, List.filterMap_cons,
        List.filterMap_cons]
      rw [Event.posted, Event.posted] at ih
      rw [ih]
    | false =>
      have silent : event.posted? = none := by cases event <;> first | rfl | cases offer
      rw [List.filter_cons_of_neg (by simp [offer]), ih, Event.posted, Event.posted,
        List.filterMap_cons_none silent]

theorem Mark.sent?_eq (mark : Mark) : mark.sent? = mark.built?.or mark.retried? := by
  cases mark with
  | closed ending _ => cases ending <;> rfl
  | _ => rfl

private theorem Move.taken (move : Move stimulus ⟨f, r, out⟩ mark ⟨g, r', out'⟩)
    (taken : TakesAll (mark.calls f)) (h : mark.sent? = some sent) : sent.taken = true := by
  have offered : sent.call ∈ (mark.calls f).filter Event.isOffer := by
    rw [move.offers, ← Mark.sent?_eq, h]
    exact List.mem_cons_self
  exact taken _ _ (List.mem_filter.1 offered).1

/-- Nothing has to wait for a way out that takes every packet. -/
theorem Move.idle (move : Move stimulus ⟨f, r, out⟩ mark ⟨g, r', out'⟩)
    (taken : TakesAll (mark.calls f)) (idle : f.pending = false) : g.pending = false := by
  have posts := move.posts
  generalize hs : mark.sent? = sent?, hp : g.pending = pending at posts
  cases posts with
  | nothing => exact idle
  | control _ => exact idle
  | data _ => rw [move.taken taken hs, Bool.not_true]

theorem Move.posted_of_idle (move : Move stimulus ⟨f, r, out⟩ mark ⟨g, r', out'⟩)
    (taken : TakesAll (mark.calls f)) (idle : f.pending = false) :
    Event.posted (mark.calls f) = mark.built?.toList.map fun sent => sent.packet.bytes := by
  have fresh : mark.retried? = none := by
    cases retried : mark.retried? with
    | none => rfl
    | some sent => exact absurd (idle.symm.trans (move.retries retried).1) Bool.false_ne_true
  rw [← posted_filter, move.offers, fresh, Option.or_none]
  cases built : mark.built? with
  | none => rfl
  | some sent =>
    have ht : sent.taken = true := move.taken taken (by rw [Mark.sent?_eq, built]; rfl)
    simp [Event.posted, Event.posted?, Sent.call, ht]

/-- What the device heard last, of a way out that takes every packet. -/
structure Heard (events : List Event) (f : TcpFlow) : Prop where
  healthy : Healthy f
  idle : f.pending = false
  told : ∀ packet, (Event.posted events).getLast? = some packet → ∃ segment,
    Segment.ofBytes packet = .ok (some segment) ∧ (segment.window = 0 → f.advertised = 0)
  spoke : f.phase.isConnecting = false → f.phase ≠ .closed → Event.posted events ≠ []

/-- A flow that has answered the device is aware of its room. -/
def Watchful (f : TcpFlow) : Prop :=
  f.phase.isConnecting = false → f.phase ≠ .closed → f.Aware

/-- The answer to the device is a packet. -/
theorem Move.answered (move : Move stimulus ⟨f, r, out⟩ mark ⟨g, r', out'⟩)
    (built : mark.built? = none) (connected : g.phase.isConnecting = false)
    (isOpen : g.phase ≠ .closed) : f.phase.isConnecting = false := by
  cases move with
  | opened => cases connected
  | reopened _ phase _ | unconnected phase _ =>
    change f.phase.isConnecting = false at connected
    rw [phase] at connected
    cases connected
  | acknowledged _ inOrder _ _ => exact inOrder.connected
  | closed => exact absurd rfl isOpen
  | missed reads _ => exact reads.connected
  | wrote writes _ _ => exact writes.connected
  | retried | blocked | shut | told => exact connected
  | _ => cases built

theorem Move.watchful (hf : Healthy f) (move : Move stimulus ⟨f, r, out⟩ mark ⟨g, r', out'⟩)
    (noWrite : mark.isWrite = false) (h : f.Watchful) : g.Watchful := by
  intro connected isOpen
  cases built : mark.built? with
  | some sent => exact (advertised_eq_zero_iff (move.grants hf built).advertised_eq).1
  | none =>
    have before := h (move.answered built connected isOpen) move.isOpen
    cases move with
    | missed reads _ => exact (advertised_eq_zero_iff reads.advertised_eq).1
    | wrote => cases noWrite
    | closed => exact absurd rfl isOpen
    | opened | reopened | unconnected | acknowledged | retried | blocked | shut | told => exact before
    | _ => cases built

/-- Reading prepares a packet that may never be sent, but grants no other window by that. -/
theorem Move.heard (h : Heard events f) (move : Move stimulus ⟨f, r, out⟩ mark ⟨g, r', out'⟩)
    (taken : TakesAll (mark.calls f)) (aware : (∃ size kind, mark = .missed size kind) → f.Aware) :
    Heard (events ++ mark.calls f) g := by
  have posted := move.posted_of_idle taken h.idle
  refine ⟨move.healthy h.healthy, move.idle taken h.idle, ?_, ?_⟩
  · intro packet last
    rw [Event.posted_append, posted] at last
    cases built : mark.built? with
    | some sent =>
      rw [built, List.getLast?_append] at last
      obtain ⟨segment, read, window⟩ := (move.grants h.healthy built).read_eq
      cases last
      exact ⟨segment, read, fun none => window.symm.trans none⟩
    | none =>
      rw [built, Option.toList_none, List.map_nil, List.append_nil] at last
      obtain ⟨segment, read, none⟩ := h.told packet last
      refine ⟨segment, read, fun closed => ?_⟩
      rcases move.advertised_cases built with same | ⟨missed, window⟩
      · exact same.trans (none closed)
      · have full : f.ring.remaining = 0 := aware missed (none closed)
        rw [window, windowToGrant, full]
        rfl
  · intro connected isOpen
    rw [Event.posted_append, posted]
    cases built : mark.built? with
    | some sent => simp
    | none =>
      intro nothing
      exact h.spoke (move.answered built connected isOpen) move.isOpen
        (List.append_eq_nil_iff.1 nothing).1

private theorem takesAll_steps (taken : TakesAll (calls steps)) :
    ∀ step ∈ steps, TakesAll (step.mark.calls step.before) :=
  fun step listed packet result offered => taken packet result (List.mem_flatMap.2 ⟨step, listed, offered⟩)

private theorem calls_concat (step : Step) :
    calls (journal ++ [step]) = calls journal ++ step.mark.calls step.before := by
  simp [calls]

private theorem Move.heard_watchful (h : Heard (calls journal) f ∧ f.Watchful)
    (move : Move stimulus ⟨f, r, out⟩ mark ⟨g, r', out'⟩) (taken : TakesAll (mark.calls f))
    (noWrite : mark.isWrite = false) :
    Heard (calls (journal ++ [⟨f, mark, g⟩])) g ∧ g.Watchful := by
  rw [calls_concat]
  refine ⟨move.heard h.1 taken ?_, move.watchful h.1.healthy noWrite h.2⟩
  rintro ⟨size, kind, rfl⟩
  cases move with
  | missed reads _ => exact h.2 reads.connected reads.isOpen

private theorem Path.heard_watchful (path : Path stimulus s steps t) (taken : TakesAll (calls steps))
    (noWrite : ∀ step ∈ steps, step.mark.isWrite = false)
    (h : Heard (calls journal) s.self ∧ s.self.Watchful) :
    Heard (calls (journal ++ steps)) t.self ∧ t.self.Watchful :=
  path.invariant_of
    (p := fun step => TakesAll (step.mark.calls step.before) ∧ step.mark.isWrite = false)
    (I := fun journal f => Heard (calls journal) f ∧ f.Watchful)
    (fun hf move kind => move.heard_watchful hf kind.1 kind.2)
    (fun step listed => ⟨takesAll_steps taken step listed, noWrite step listed⟩) journal h

private theorem Drains.heard_watchful (drains : Drains stimulus s steps t)
    (taken : TakesAll (calls steps)) (h : Heard (calls journal) s.self ∧ s.self.Watchful) :
    Heard (calls (journal ++ steps)) t.self ∧ t.self.Watchful := by
  by_cases write : ∃ step ∈ steps, step.mark.isWrite = true
  · refine ⟨?_, fun _ _ => drains.aware write⟩
    refine drains.path.invariant_of (p := fun step => TakesAll (step.mark.calls step.before) ∧
        (step.mark.isUpstream = true ∨ step.mark.isAside = true))
      (I := fun journal f => Heard (calls journal) f) ?_
      (fun step listed => ⟨takesAll_steps taken step listed, drains.upstream step listed⟩) journal h.1
    intro journal f g r r' out out' mark hf move kind
    rw [calls_concat]
    refine move.heard hf kind.1 ?_
    rintro ⟨size, kind', rfl⟩
    rcases kind.2 with ⟨⟨⟩⟩ | ⟨⟨⟩⟩
  · refine drains.path.heard_watchful taken (fun step listed => ?_) h
    exact Bool.eq_false_iff.2 fun isWrite => write ⟨step, listed, isWrite⟩

/-- A course that has every packet taken leaves the device up to date if it found it so. -/
theorem Course.heard_watchful (course : Course stimulus s steps t) (taken : TakesAll (calls steps))
    (h : Heard (calls journal) s.self ∧ s.self.Watchful) :
    Heard (calls (journal ++ steps)) t.self ∧ t.self.Watchful := by
  induction course generalizing journal with
  | quiet => simpa using h
  | aside move called aside =>
    refine (Path.move move called).heard_watchful taken ?_ h
    exact List.forall_mem_singleton.2 (Mark.not_isWrite_of_isAside aside)
  | reading path downstream _ =>
    refine path.heard_watchful taken (fun step listed => ?_) h
    exact Mark.not_isWrite_of_isDownstream (downstream step listed)
  | writing drains => exact drains.heard_watchful taken h
  | ending move _ _ _ _ ih =>
    rw [← List.singleton_append, calls_append, takesAll_append] at taken
    rw [← List.singleton_append, ← List.append_assoc]
    refine ih taken.2 (move.heard_watchful h ?_ rfl)
    exact takesAll_steps taken.1 _ List.mem_cons_self
  | append _ _ ih ih' =>
    rw [calls_append, takesAll_append] at taken
    rw [← List.append_assoc]
    exact ih' taken.2 (ih taken.1 h)

theorem Run.heard_watchful (run : Run journal s) (taken : TakesAll (calls journal)) :
    Heard (calls journal) s.self ∧ s.self.Watchful := by
  refine run.at_rest (I := fun events f => TakesAll events → Heard events f ∧ f.Watchful) ?_ ?_ taken
  · intro f fresh _
    have silent : f.phase.isConnecting ≠ false := by simp [fresh.phase_eq, Phase.isConnecting]
    refine ⟨⟨fresh.healthy, fresh.pending_eq, by rintro _ ⟨⟩, ?_⟩, ?_⟩
    · exact fun connected => absurd connected silent
    · exact fun connected => absurd connected silent
  · intro stimulus journal steps s t _ course before taken
    rw [calls_append, takesAll_append] at taken
    exact course.heard_watchful taken.2 (before taken.1)

/-- Every write of a flow that has granted no window is followed by a packet that grants one. -/
theorem Course.invited (course : Course stimulus s steps t) (healthy : Healthy s.self) :
    Followed Step.Relieves Step.Invites steps := by
  induction course with
  | quiet => trivial
  | aside _ _ aside =>
    refine .of_forall_not (List.forall_mem_singleton.2 fun relieves => ?_)
    exact absurd relieves.1 (Mark.not_isWrite_of_isAside aside ▸ Bool.false_ne_true)
  | reading _ downstream _ =>
    refine .of_forall_not fun step listed relieves => ?_
    have noWrite := Mark.not_isWrite_of_isDownstream (downstream step listed)
    exact absurd relieves.1 (noWrite ▸ Bool.false_ne_true)
  | writing drains => exact drains.invited healthy.sound
  | ending move _ _ _ _ ih =>
    exact ⟨fun relieves => absurd relieves.1 Bool.false_ne_true, ih (move.healthy healthy)⟩
  | append first _ ih ih' =>
    have later := first.path.invariant (I := fun _ f => Healthy f) (fun hf move => move.healthy hf) []
      healthy
    exact (ih healthy).append (ih' later)

/-- A flow without room has granted no window. -/
structure Tight (f : TcpFlow) : Prop where
  healthy : Healthy f
  advertised_eq : f.ring.remaining = 0 → f.advertised = 0

theorem Fresh.tight (fresh : Fresh f) : f.Tight := ⟨fresh.healthy, fun _ => fresh.advertised_eq⟩

theorem Move.tight (h : f.Tight) (move : Move stimulus ⟨f, r, out⟩ mark ⟨g, r', out'⟩) :
    g.Tight := by
  refine ⟨move.healthy h.healthy, fun full => ?_⟩
  cases built : mark.built? with
  | some sent => exact (advertised_eq_zero_iff (move.grants h.healthy built).advertised_eq).2 full
  | none =>
    cases move with
    | missed reads _ => exact (advertised_eq_zero_iff reads.advertised_eq).2 full
    | wrote writes nonempty taken =>
      exact absurd full (Nat.ne_of_gt (writes.remaining_pos h.healthy.sound nonempty taken))
    | closed _ ends _ =>
      cases ends <;> first | exact h.advertised_eq full | cases built
    | opened | reopened | unconnected | acknowledged | retried | blocked | shut | told =>
      exact h.advertised_eq full
    | _ => cases built

private theorem Run.tight_step (run : Run journal s) (h : pre ++ [step] <+: journal) :
    step.before.Tight ∧ ∃ (stimulus : Stimulus) (r r' : Registry) (out out' : σ),
      Move stimulus ⟨step.before, r, out⟩ step.mark ⟨step.after, r', out'⟩ := by
  obtain ⟨tight, -, move⟩ :=
    run.invariant_step (I := fun _ f => f.Tight) Fresh.tight Move.tight h
  exact ⟨tight, move⟩

theorem Mark.built?_of_isInvitation (h : mark.isInvitation = true) :
    ∃ sent, mark.built? = some sent := by
  cases mark with
  | widened sent => exact ⟨sent, rfl⟩
  | closed ending _ =>
    cases ending with
    | reset _ sent => exact ⟨sent, rfl⟩
    | _ => cases h
  | _ => cases h

/-- Where a full ring was written, a window is granted before the operation ends. -/
theorem Run.exists_grant {offered : Nat} {bytes : Bytes} {post : List Step}
    (run : Run (journal ++ (pre ++ step :: post)) t)
    (invited : Followed Step.Relieves Step.Invites (pre ++ step :: post))
    (taken : TakesAll (calls (pre ++ step :: post))) (wrote : step.mark = .wrote offered bytes)
    (full : step.before.ring.remaining = 0) :
    ∃ packet segment, .offer packet true ∈ calls post ∧
      Segment.ofBytes packet = .ok (some segment) ∧ segment.window ≠ 0 := by
  have tight : step.before.Tight :=
    (run.tight_step (⟨post, by simp⟩ : journal ++ pre ++ [step] <+: _)).1
  obtain ⟨later, listed, invites, room⟩ := invited.exists_later
    ⟨by rw [wrote]; rfl, tight.advertised_eq full⟩
  obtain ⟨first, second, rfl⟩ := List.append_of_mem listed
  obtain ⟨before, _, _, _, _, _, move⟩ :=
    run.tight_step (⟨second, by simp⟩ : journal ++ (pre ++ step :: first) ++ [later] <+: _)
  obtain ⟨sent, built⟩ := Mark.built?_of_isInvitation invites
  obtain ⟨⟨segment, read, window⟩, advertised⟩ := move.grants before.healthy built
  refine ⟨sent.packet.bytes, segment, ?_, read, ?_⟩
  · have offered : sent.call ∈ (later.mark.calls later.before).filter Event.isOffer := by
      rw [move.offers, built]
      exact List.mem_cons_self
    replace offered := (List.mem_filter.1 offered).1
    have ht : sent.taken = true := by
      refine takesAll_steps taken later ?_ _ _ offered
      simp
    rw [Sent.call, ht] at offered
    exact List.mem_flatMap.2 ⟨later, listed, offered⟩
  · rw [window, ne_eq, advertised_eq_zero_iff advertised]
    exact Nat.ne_of_gt room

/-- In every run in which every packet was taken, the last packet that the device got grants no window
only while the ring is full, once the flow has answered the device and as long as it is open. Every
write that finds the ring full is followed in the same operation by a packet that grants a window. -/
theorem Run.window_reopened (run : Run journal s) (taken : TakesAll (calls journal)) :
    (s.self.phase.isConnecting = false → s.self.phase ≠ .closed → ∃ packet segment,
      (Event.posted (calls journal)).getLast? = some packet ∧
        Segment.ofBytes packet = .ok (some segment) ∧
        (segment.window = 0 → s.self.ring.remaining = 0)) ∧
    ∀ (operation : Operation) (t : Scene TcpFlow σ), operation.perform s = .ok ((), t) →
      ∃ steps, Path operation.stimulus s steps t ∧ Run (journal ++ steps) t ∧
        t.host.calls = (calls steps).reverse ++ s.host.calls ∧
        (TakesAll (calls steps) → ∀ pre step post offered bytes, steps = pre ++ step :: post →
          step.mark = .wrote offered bytes → step.before.ring.remaining = 0 →
          ∃ packet segment, .offer packet true ∈ calls post ∧
            Segment.ofBytes packet = .ok (some segment) ∧ segment.window ≠ 0) := by
  obtain ⟨heard, watchful⟩ := run.heard_watchful taken
  constructor
  · intro connected isOpen
    obtain ⟨packet, last⟩ : ∃ packet, (Event.posted (calls journal)).getLast? = some packet :=
      Option.ne_none_iff_exists'.1 fun none =>
        heard.spoke connected isOpen (List.getLast?_eq_none_iff.1 none)
    obtain ⟨segment, read, closed⟩ := heard.told packet last
    exact ⟨packet, segment, last, read, fun none => watchful connected isOpen (closed none)⟩
  · intro operation t performed
    obtain ⟨steps, course⟩ := run.course performed
    have run' := run.act performed course.path
    refine ⟨steps, course.path, run', course.path.after.calls_eq, ?_⟩
    rintro taken' pre step post offered bytes rfl wrote full
    exact run'.exists_grant (course.invited heard.healthy) taken' wrote full

/-- The device sends as much as there is room for while the socket takes nothing: it was told that there
is no more room, and there is none. -/
theorem window_reopened_full : ∃ journal, ∃ s : Scene TcpFlow Credit, Run journal s ∧
    TakesAll (calls journal) ∧ s.self.phase = .established ∧
      (∃ packet segment, (Event.posted (calls journal)).getLast? = some packet ∧
        Segment.ofBytes packet = .ok (some segment) ∧ segment.window = 0) ∧
      s.self.ring.remaining = 0 := by
  obtain ⟨journal, s, run, result⟩ := exists_run_of_enacts
    (p := fun events t => t.self.phase == .established &&
      (events.filter Event.isOffer).all (fun event => event.posted?.isSome) &&
      ((Event.posted events).getLast?.map fun packet =>
        (Segment.ofBytes packet).toOption.join.map Segment.window) == some (some 0))
    (show enacts (devicePacket .syn 0x110 0 []) { streamCapacity := 5 }
      { sockets := [(0, { transfers := [.failure .wouldBlock] })] }
      [(⟨none⟩, .ofDevice .syn 0x110 0 []),
        (⟨none⟩, .ready { writable := true }),
        (⟨none⟩, .ofDevice .ack 0x111 0x1001 []),
        (⟨none⟩, .ofDevice (.psh ∪ .ack) 0x111 0x1001 [104, 101, 108, 108, 111])] _ = true by
      decide +kernel)
  simp only [Bool.and_eq_true, beq_iff_eq, Option.map_eq_some_iff, List.all_eq_true] at result
  obtain ⟨⟨phase, offers⟩, packet, last, closed⟩ := result
  have taken : TakesAll (calls journal) := by
    intro packet taken offered
    have posted := offers _ (List.mem_filter.2 ⟨offered, rfl⟩)
    cases taken with
    | true => rfl
    | false => cases posted
  obtain ⟨packet', segment, last', read, full⟩ := (run.window_reopened taken).1
    (by rw [phase]; rfl) (by simp [phase])
  obtain rfl : packet = packet' := Option.some.inj (last.symm.trans last')
  rw [read] at closed
  obtain ⟨_, ⟨⟩, closed⟩ := closed
  exact ⟨journal, s, run, taken, phase, ⟨packet, segment, last, read, closed⟩, full closed⟩

end TcpFlow

end TunnelRelay
