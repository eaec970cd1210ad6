import TunnelRelay.Proofs.Flow.Basic
import TunnelRelay.Proofs.Flow.Udp.Handling

/-!
# Turns of a UDP flow

Every sequence of moves is a turn of the flow in its session. As with TCP, a pull needs no place among
the flows that wait.
-/

namespace TunnelRelay

open Act

namespace UdpFlow

section

variable {σ : Type} [Outlet σ] {stimulus : Stimulus} {now : Nat} {f g : UdpFlow} {r r' : Registry}
  {out out' : σ} {mark : Mark} {registration : Registration} {call : Option Event} {ending : Ending}

theorem Ends.sameFlow (h : Ends stimulus f ending g) : Flow.Same (.udp f) (.udp g) := by
  cases h <;> exact ⟨rfl, rfl, rfl⟩

theorem Ends.pending_eq (h : Ends stimulus f ending g) : g.pending = f.pending := by
  cases h <;> rfl

theorem Move.isOpen (h : Move stimulus now ⟨f, r, out⟩ mark ⟨g, r', out'⟩) : f.closed = false := by
  cases h with
  | forwarded sends _ | unsent sends _ => exact sends.isOpen
  | missed receives _ | delivered receives _ _ _ => exact receives.isOpen
  | stored | dropped | retried | told | closed => assumption

theorem Move.sameFlow (h : Move stimulus now ⟨f, r, out⟩ mark ⟨g, r', out'⟩) :
    Flow.Same (.udp f) (.udp g) := by
  cases h with
  | closed _ ends cancels =>
    obtain ⟨key, socket, token⟩ := ends.sameFlow
    exact ⟨key, socket, cancels.token_eq.trans token⟩
  | stored | dropped | forwarded | unsent | missed | delivered | retried | told =>
    exact ⟨rfl, rfl, rfl⟩

theorem Move.enrolled (h : Move stimulus now ⟨f, r, out⟩ mark ⟨g, r', out'⟩) :
    (Flow.udp f).Enrolled r (.udp g) r' := by
  have isOpen := h.isOpen
  cases h with
  | closed _ ends _ => exact .inr ⟨congrArg r.erase ends.sameFlow.token_eq, rfl⟩
  | stored | dropped | forwarded | unsent | missed | delivered | retried | told =>
    exact .inl ⟨rfl, isOpen⟩

theorem Move.posts (h : Move stimulus now ⟨f, r, out⟩ mark ⟨g, r', out'⟩) :
    Flow.Posts (.udp f) out mark.sent? g.pending out' := by
  cases h with
  | delivered _ _ _ offered | retried _ _ _ offered => exact .data offered
  | closed _ ends _ =>
    rw [ends.pending_eq]
    exact .nothing
  | stored | dropped | forwarded | unsent | missed | told => exact .nothing

theorem Ends.keepTo (h : Ends stimulus f ending g) :
    Event.KeepTo (ending.calls f.socket) f.socket (some f.registration.token) := by
  cases h with
  | sendError | receiveError => exact Event.keepTo_singleton rfl rfl rfl
  | refused _ kind => exact Registration.keepTo_pollerCall _ _
  | disconnected _ => exact Event.keepTo_nil _ _

theorem Move.keepTo (h : Move stimulus now ⟨f, r, out⟩ mark ⟨g, r', out'⟩) :
    Event.KeepTo (mark.calls f) f.socket (some f.registration.token) := by
  cases h with
  | told _ _ => exact Registration.keepTo_pollerCall _ _
  | closed _ ends cancels => exact ends.keepTo.append (ends.sameFlow.keepTo cancels.keepTo)
  | delivered | retried =>
    simp only [Event.KeepTo, Mark.calls]
    split <;> simp [Sent.call, Event.socket?, Event.closes?, Event.token?]
  | stored | dropped => exact Event.keepTo_nil _ _
  | forwarded | unsent | missed => exact Event.keepTo_singleton rfl rfl rfl

theorem Move.posted_eq (h : Move stimulus now ⟨f, r, out⟩ mark ⟨g, r', out'⟩) :
    Event.posted (mark.calls f) = Event.posted (mark.sent?.toList.map Sent.call) := by
  have await (taken : Bool) : Event.posted (if taken then [] else [.await f.key]) = [] := by
    split <;> rfl
  cases h with
  | told _ _ => exact Registration.posted_pollerCall _ _
  | closed _ ends cancels =>
    rw [Mark.calls, Event.posted_append, cancels.posted_eq_nil, List.append_nil]
    cases ends with
    | refused _ kind => exact Registration.posted_pollerCall _ _
    | sendError | receiveError | disconnected => rfl
  | delivered | retried =>
    rw [Mark.calls, Event.posted_append, await, List.append_nil]
    rfl
  | stored | dropped | forwarded | unsent | missed => rfl

/-- Whatever a flow offers to the device answers its key. -/
theorem Move.suits (h : Move stimulus now ⟨f, r, out⟩ mark ⟨g, r', out'⟩)
    (hf : (Flow.udp f).Suits) :
    (Flow.udp g).Suits ∧ ∀ sent, mark.sent? = some sent → Answers f.key sent.packet.bytes := by
  have started {size : Nat} {reply : Reply} (receives : f.Receives size reply) :
      (Flow.udp { f with reply }).Suits ∧ reply.data.filled = reply.headers := by
    obtain ⟨-, data, rfl, filled⟩ := Reply.reserve_inv receives.started
    refine ⟨⟨hf.reply.congr rfl rfl, fun pending => ?_⟩, filled⟩
    exact absurd (receives.idle.symm.trans pending) Bool.false_ne_true
  cases h with
  | missed receives _ => exact ⟨(started receives).1, nofun⟩
  | delivered receives committed completed _ =>
    obtain ⟨suits, filled⟩ := started receives
    obtain ⟨carries, data, rfl, filled'⟩ :=
      Reply.commit_completeData_inv suits.reply.plain filled committed completed
    have answers := carries.answers suits.reply
    refine ⟨⟨suits.reply.congr rfl rfl, fun _ => ?_⟩, fun sent same => Option.some.inj same ▸ answers⟩
    change Answers _ data.filled
    rw [filled']
    exact answers
  | retried _ pending latest _ =>
    have answers := hf.waiting pending
    have same : _ = f.reply.data.filled := Packet.bytes_of_ofBytes latest
    refine ⟨⟨hf.reply, fun _ => answers⟩, fun sent found => ?_⟩
    rw [← Option.some.inj found, same]
    exact answers
  | closed _ ends _ =>
    refine ⟨?_, nofun⟩
    cases ends with
    | receiveError receives _ =>
      have suits := (started receives).1
      exact ⟨suits.reply, suits.waiting⟩
    | sendError | refused | disconnected => exact ⟨hf.reply, hf.waiting⟩
  | stored | dropped | forwarded | unsent | told => exact ⟨⟨hf.reply, hf.waiting⟩, nofun⟩

end

section

variable {σ : Type} [Outlet σ] {stimulus : Stimulus} {s t : Scene UdpFlow σ} {steps : List Step}

theorem Path.visit (h : Path stimulus s steps t) :
    Flow.Visit (s.map .udp) (calls steps) (t.map .udp) := by
  induction h with
  | quiet called => exact .of_after called
  | @move s mark g r out host move called =>
    rw [show calls [⟨s.self, mark, g⟩] = mark.calls s.self from List.append_nil _]
    exact .of_move move.isOpen move.sameFlow move.enrolled (fun _ => trivial) called move.keepTo
  | append _ _ ih ih' =>
    simp only [calls, List.flatMap_append]
    exact ih.trans ih'

theorem Reaches.visit (h : Reaches stimulus s t) :
    ∃ calls, Flow.Visit (s.map .udp) calls (t.map .udp) := by
  obtain ⟨steps, passage⟩ := h
  exact ⟨_, passage.path.visit⟩

theorem ensures_ended : Ensures disconnect s fun _ t =>
    ∃ calls, Flow.Ended (s.map .udp) calls (t.map .udp) := by
  by_cases closed : s.self.closed = true
  · simp only [disconnect, ensures_bind, ensures_self, if_pos closed, ensures_pure]
    exact ⟨[], .of_after (.refl _), closed, rfl, rfl⟩
  rw [Bool.not_eq_true] at closed
  refine ensures_disconnect_of_open closed ?_
  intro registration call host cancels called
  have move : Move .disconnect s.host.clock ⟨s.self, s.registry, s.out⟩
      (.closed .disconnected call) _ :=
    .closed closed (.disconnected rfl) cancels
  refine ⟨_, (Path.move move called).visit, rfl, ?_, rfl⟩
  simpa [calls, Mark.calls, Ending.calls] using cancels.posted_eq_nil

end

variable {stimulus : Stimulus} {s t : Scene UdpFlow Outbox} {steps : List Step}

theorem Path.turn (h : Path stimulus s steps t) :
    Flow.Turn (s.map .udp) (calls steps) (t.map .udp) := by
  induction h with
  | quiet called => exact .of_after called
  | move move called =>
    have visit := (Path.move move called).visit
    simp only [calls, List.flatMap_singleton] at visit ⊢
    exact .of_posts visit move.posts move.posted_eq move.suits
  | append _ _ ih ih' =>
    simp only [calls, List.flatMap_append]
    exact ih.trans ih'

theorem Reaches.turn (h : Reaches stimulus s t) :
    ∃ calls, Flow.Turn (s.map .udp) calls (t.map .udp) := by
  obtain ⟨steps, passage⟩ := h
  exact ⟨_, passage.path.turn⟩

/-- After a pull the flow waits if it still holds a packet back. -/
theorem ensures_pull_waits (isOpen : s.self.closed = false) :
    Ensures pull s fun _ t => (∃ calls, Flow.Turn (s.map .udp) calls (t.map .udp)) ∧
      (Flow.udp t.self).Waits t.out.waiting := by
  apply ensures_pull
  · intro idle
    refine ⟨⟨_, .of_after (.refl _)⟩, fun pending => ?_⟩
    rcases idle with idle | closed
    · exact absurd (idle.symm.trans pending) Bool.false_ne_true
    · exact absurd (isOpen.symm.trans closed) Bool.false_ne_true
  · intro taken out host step first steps t path _
    refine ⟨⟨_, first.turn.trans path.turn⟩, path.turn.waits fun refused => ?_⟩
    replace refused : (!taken) = true := refused
    obtain rfl : taken = false := by simpa using refused
    exact Outbox.mem_waiting_await s.self.key out

/-- A started flow has a new socket, which it registers or closes. -/
theorem ensures_opens {α σ : Type} {session : Nat} {key : FlowKey} {request : Packet} {config : Config}
    {s : Scene α σ} : Ensures (start session key request config) s fun result t =>
      ∃ calls, Flow.Opens session key request s calls (result.map .udp) t := by
  simp only [start, ensures_bind, ensures_liftM]
  intro found hr
  split
  · refine (ensures_pure _).2 ⟨[], .of_error rfl rfl (Host.After.refl _).adds ?_ rfl (.refl _ _ _)⟩
    exact List.forall_mem_nil _
  next reply =>
  simp only [ensures_bind, ensures_call]
  obtain ⟨adds, created⟩ := Host.creates_openDatagram s.host
  split
  · next kind _ =>
    refine (ensures_pure _).2 ⟨_, .of_error rfl rfl adds ?_ rfl (.of_adds adds ?_)⟩
    · simp [Event.socket?]
    · simp [Event.socket?]
  next socket hc =>
  obtain ⟨rfl, new⟩ := created socket hc
  have held : Exchange s.registry s.host [] s.registry s.host.openDatagram.2
      [⟨s.host.nextSocket, none⟩] :=
    .created (.of_adds adds (by simp [Event.socket?])) adds (by simp [Event.closes?]) new
  simp only [ensures_bind, ensures_call]
  have connects := (Host.After.refl s.host.openDatagram.2).connectDatagram s.host.nextSocket
    key.destination
  have connected := connects.adds
  have own (token : Option Nat) (outcome : Outcome) : Event.KeepTo
      [.connectDatagram s.host.nextSocket key.destination outcome] s.host.nextSocket token :=
    Event.keepTo_singleton rfl rfl rfl
  split
  · simp only [ensures_bind, ensures_tell, ensures_pure]
    refine ⟨_, .of_error rfl rfl ((adds.trans connected).trans (Host.adds_close _ _)) ?_ rfl ?_⟩
    · simp [Event.socket?]
    · exact (held.trans (.of_keepTo connected (own _ _))).trans (.close _ _ _)
  rw [ensures_bind]
  apply Registration.ensures_enter
  · intro host called
    simp only [ensures_bind, ensures_note, ensures_liftM, ensures_now, ensures_pure]
    intro ring _
    have entered := connected.trans (called.note (.flow key .opened)).adds
    refine ⟨_, rfl, rfl, adds.trans entered, ?_, rfl, ?_, ?_, ?_⟩
    · simp [Event.socket?]
    · exact held.trans (.entered entered ((own _ _).append (Event.keepTo_register _ _ _ _)))
    · rintro f ⟨⟩
      exact ⟨rfl, rfl, rfl, rfl, trivial⟩
    · rintro f bytes ⟨⟩ parsed routed
      exact ⟨Reply.suits_of_ofRequest parsed routed hr, by simp [Flow.pending]⟩
  · intro kind host called
    simp only [ensures_bind, ensures_tell, ensures_pure]
    have entered := connected.trans called.adds
    refine ⟨_, .of_error rfl rfl ((adds.trans entered).trans (Host.adds_close _ _)) ?_ rfl ?_⟩
    · simp [Event.socket?]
    · refine (held.trans (.refused entered ?_)).trans (.close _ _ _)
      exact (own _ _).append (Event.keepTo_register _ _ _ _)

end UdpFlow

end TunnelRelay
