import TunnelRelay.Proofs.Flow.Basic
import TunnelRelay.Proofs.Flow.Tcp.Segments

/-!
# Turns of a TCP flow

Every sequence of moves is a turn of the flow in its session. A pull needs no place among the flows
that wait: it gets the flow a new one if the packet is refused again.
-/

namespace TunnelRelay

open Act

namespace TcpFlow

def Mark.sent? : Mark → Option Sent
  | connected sent | took _ sent | ended _ sent | delivered _ _ sent | retried sent
  | exhausted _ sent | widened sent | closed (.finished _ sent) _ | closed (.reset _ sent) _ =>
    some sent
  | _ => none

section

variable {σ : Type} [Outlet σ] {stimulus : Stimulus} {f g : TcpFlow} {r r' : Registry}
  {out out' : σ} {mark : Mark} {registration : Registration} {call : Option Event} {sent : Sent}
  {flags : TcpFlags}

theorem Emits.posts {f' : TcpFlow} (h : Emits flags f' out sent g out')
    (same : f'.pending = f.pending) : Flow.Posts (.tcp f) out (some sent) g.pending out' := by
  rw [h.same.pending_eq, same]
  exact .control h.offered

theorem Resets.pending_eq {cause : Cause} (h : f.Resets stimulus cause g) :
    g.pending = f.pending := by
  cases h with
  | readError reads failed => exact reads.same.pending_eq
  | noRequest | request | connectError | noPeer | writeError => rfl

theorem Ends.posts {ending : Ending} (h : Ends stimulus f out ending g out') :
    Flow.Posts (.tcp f) out (Mark.closed ending call).sent? g.pending out' := by
  cases h with
  | finished _ _ _ emits => exact emits.posts rfl
  | reset resets emits => exact emits.posts resets.pending_eq
  | resetByDevice | confirmed | refused | disconnected => exact .nothing

theorem Move.posts (h : Move stimulus ⟨f, r, out⟩ mark ⟨g, r', out'⟩) :
    Flow.Posts (.tcp f) out mark.sent? g.pending out' := by
  cases h with
  | connected _ emits => exact emits.posts rfl
  | took _ _ _ _ _ _ emits => exact emits.posts rfl
  | ended _ _ _ emits => exact emits.posts rfl
  | widened _ _ _ emits => exact emits.posts rfl
  | missed reads _ =>
    rw [reads.same.pending_eq]
    exact .nothing
  | delivered _ _ _ _ _ offered => exact .data offered
  | retried _ _ _ offered => exact .data offered
  | exhausted reads emits => exact emits.posts reads.same.pending_eq
  | closed _ ends _ => exact ends.posts
  | opened | reopened | unconnected | acknowledged | wrote | blocked | shut | told => exact .nothing

theorem SameState.sameFlow (h : SameState f g) : Flow.Same (.tcp f) (.tcp g) :=
  ⟨h.key_eq, h.socket_eq, congrArg Registration.token h.registration_eq⟩

theorem Resets.sameFlow {cause : Cause} (h : f.Resets stimulus cause g) :
    Flow.Same (.tcp f) (.tcp g) := by
  cases h with
  | readError reads failed => exact reads.same.sameFlow
  | noRequest | request | connectError | noPeer | writeError => exact ⟨rfl, rfl, rfl⟩

theorem Resets.key_eq {cause : Cause} (h : f.Resets stimulus cause g) : g.key = f.key :=
  h.sameFlow.key_eq

theorem Ends.sameFlow {ending : Ending} (h : Ends stimulus f out ending g out') :
    Flow.Same (.tcp f) (.tcp g) := by
  cases h with
  | finished _ _ _ emits =>
    obtain ⟨key, socket, token⟩ := emits.same.sameFlow
    exact ⟨key, socket, token⟩
  | reset resets emits => exact resets.sameFlow.trans emits.same.sameFlow
  | resetByDevice | confirmed | refused | disconnected => exact ⟨rfl, rfl, rfl⟩

theorem Cancels.onRegistration (h : f.Cancels registration call) :
    f.registration.Cancels f.socket registration call := by
  cases h with
  | unknown unknown => exact .unknown unknown
  | known known outcome => exact .known known outcome

theorem Move.sameFlow (h : Move stimulus ⟨f, r, out⟩ mark ⟨g, r', out'⟩) :
    Flow.Same (.tcp f) (.tcp g) := by
  cases h with
  | connected _ emits | took _ _ _ _ _ _ emits | ended _ _ _ emits | widened _ _ _ emits =>
    obtain ⟨key, socket, token⟩ := emits.same.sameFlow
    exact ⟨key, socket, token⟩
  | missed reads _ | delivered reads _ _ _ _ _ =>
    obtain ⟨key, socket, token⟩ := reads.same.sameFlow
    exact ⟨key, socket, token⟩
  | exhausted reads emits =>
    obtain ⟨key, socket, token⟩ := emits.same.sameFlow
    exact reads.same.sameFlow.trans ⟨key, socket, token⟩
  | closed _ ends cancels =>
    obtain ⟨key, socket, token⟩ := ends.sameFlow
    exact ⟨key, socket, cancels.onRegistration.token_eq.trans token⟩
  | opened | reopened | unconnected | acknowledged | retried | wrote | blocked | shut | told =>
    exact ⟨rfl, rfl, rfl⟩

theorem Move.enrolled (h : Move stimulus ⟨f, r, out⟩ mark ⟨g, r', out'⟩) :
    (Flow.tcp f).Enrolled r (.tcp g) r' := by
  suffices r' = r ∧ g.phase ≠ .closed ∨ r' = r.erase f.registration.token ∧ g.phase = .closed by
    simpa [Flow.Enrolled, Flow.isClosed, isClosed, Flow.registration] using this
  cases h with
  | closed _ ends _ => exact .inr ⟨congrArg r.erase ends.sameFlow.token_eq, rfl⟩
  | opened _ _ _ _ => exact .inl ⟨rfl, nofun⟩
  | reopened _ phase _ | unconnected phase _ => exact .inl ⟨rfl, by simp [phase]⟩
  | connected _ emits =>
    have phase : _ = Phase.synReceived := emits.same.phase_eq
    exact .inl ⟨rfl, by simp [phase]⟩
  | acknowledged _ inOrder _ _ =>
    exact .inl ⟨rfl, fun closed => inOrder.isOpen (Phase.confirmed_eq_closed.1 closed)⟩
  | took _ inOrder _ _ _ _ emits =>
    have phase : g.phase = f.phase := emits.same.phase_eq
    exact .inl ⟨rfl, phase ▸ inOrder.isOpen⟩
  | ended _ atEnd _ emits =>
    have phase : _ = f.phase := emits.same.phase_eq
    refine .inl ⟨rfl, ?_⟩
    rw [phase, Phase.deviceFinished_eq_closed.ne]
    exact atEnd.isOpen
  | missed reads _ | delivered reads _ _ _ _ _ =>
    exact .inl ⟨rfl, reads.same.phase_eq ▸ reads.isOpen⟩
  | exhausted reads emits =>
    have phase : _ = f.phase := emits.same.phase_eq.trans reads.same.phase_eq
    refine .inl ⟨rfl, ?_⟩
    rw [phase, Phase.remoteFinished_eq_closed.ne]
    exact reads.isOpen
  | widened _ isOpen _ emits =>
    exact .inl ⟨rfl, emits.same.phase_eq ▸ isOpen⟩
  | retried isOpen _ _ _ | shut isOpen _ _ _ _ | told isOpen _ => exact .inl ⟨rfl, isOpen⟩
  | wrote writes _ _ | blocked writes _ => exact .inl ⟨rfl, writes.isOpen⟩

theorem Ends.keepTo {ending : Ending} (h : Ends stimulus f out ending g out') :
    Event.KeepTo (ending.calls f.socket) f.socket (some f.registration.token) := by
  cases h with
  | reset resets _ =>
    cases resets <;>
      simp [Event.KeepTo, Ending.calls, Cause.calls, Sent.call, Event.socket?, Event.closes?,
        Event.token?]
  | refused _ kind => exact Registration.keepTo_pollerCall _ _
  | resetByDevice | confirmed | disconnected => exact Event.keepTo_nil _ _
  | finished _ _ _ _ =>
    simp [Event.KeepTo, Ending.calls, Sent.call, Event.socket?, Event.closes?, Event.token?]

theorem Move.keepTo (h : Move stimulus ⟨f, r, out⟩ mark ⟨g, r', out'⟩) :
    Event.KeepTo (mark.calls f) f.socket (some f.registration.token) := by
  cases h with
  | told _ _ => exact Registration.keepTo_pollerCall _ _
  | closed _ ends cancels =>
    exact ends.keepTo.append (ends.sameFlow.keepTo cancels.onRegistration.keepTo)
  | delivered | retried =>
    simp only [Event.KeepTo, Mark.calls]
    split <;> simp [Sent.call, Event.socket?, Event.closes?, Event.token?]
  | opened | reopened | acknowledged => exact Event.keepTo_nil _ _
  | unconnected | connected | took | ended | missed | exhausted | wrote | blocked | widened | shut =>
    simp [Event.KeepTo, Mark.calls, Sent.call, Event.socket?, Event.closes?, Event.token?]

/-- Nothing but the packet of the move can be taken on the way out. -/
theorem Move.posted_eq (h : Move stimulus ⟨f, r, out⟩ mark ⟨g, r', out'⟩) :
    Event.posted (mark.calls f) = Event.posted (mark.sent?.toList.map Sent.call) := by
  have await (taken : Bool) : Event.posted (if taken then [] else [.await f.key]) = [] := by
    split <;> rfl
  cases h with
  | told _ _ => exact Registration.posted_pollerCall _ _
  | closed _ ends cancels =>
    rw [Mark.calls, Event.posted_append, cancels.onRegistration.posted_eq_nil, List.append_nil]
    cases ends with
    | reset resets _ => cases resets <;> rfl
    | refused _ kind => exact Registration.posted_pollerCall _ _
    | resetByDevice | confirmed | finished | disconnected => rfl
  | delivered | retried =>
    rw [Mark.calls, Event.posted_append, await, List.append_nil]
    rfl
  | opened | reopened | acknowledged | unconnected | connected | took | ended | missed | exhausted
  | wrote | blocked | widened | shut => rfl

private theorem suits_prepared (hf : f.reply.Suits f.key) (flags : TcpFlags) :
    (f.prepared flags).reply.Suits f.key := by
  obtain ⟨plain, key⟩ := hf
  cases ht : f.reply.transport with
  | udp h =>
    have same : (f.prepared flags).reply = f.reply := by
      unfold prepared Reply.editTcp
      rw [ht]
    rw [same]
    exact ⟨plain, key⟩
  | tcp h =>
    obtain ⟨header, same, length, fields⟩ := prepared_reply ht flags
    unfold Reply.key at key
    rw [ht] at plain key
    rw [same]
    have source : header.sourcePort = h.sourcePort := congrArg TcpHeader.Fields.sourcePort fields
    have destination : header.destinationPort = h.destinationPort :=
      congrArg TcpHeader.Fields.destinationPort fields
    refine ⟨⟨plain.ipv4_length, plain.version_eq, plain.ipv4_declared, plain.protocol_eq,
      length.trans plain.transport_length,
      (congrArg TcpHeader.Fields.headerLength fields).trans plain.transport_declared⟩, ?_⟩
    rw [← key]
    simp only [Reply.key, TransportHeader.sourcePort, TransportHeader.destinationPort,
      TransportHeader.protocol, source, destination]

private theorem data_prepared (flags : TcpFlags) :
    (f.prepared flags).reply.data = f.reply.data := by
  unfold prepared Reply.editTcp
  split <;> rfl

theorem Emits.suits (h : Emits flags f out sent g out') (hf : (Flow.tcp f).Suits) :
    (Flow.tcp g).Suits ∧ Answers f.key sent.packet.bytes := by
  obtain ⟨reply, built, rfl⟩ := h.built
  have suits := suits_prepared hf.reply flags
  obtain ⟨carries, control, rfl⟩ := Reply.withoutPayload_inv suits.plain built
  refine ⟨⟨⟨suits.plain, suits.key_eq⟩, fun pending => ?_⟩, carries.answers suits⟩
  have waiting := hf.waiting pending
  change Answers f.key (f.prepared flags).reply.data.filled
  rwa [data_prepared flags]

theorem Reads.suits {size : Nat} (h : f.Reads size g) (hf : (Flow.tcp f).Suits) :
    (Flow.tcp g).Suits ∧ g.reply.data.filled = g.reply.headers := by
  obtain ⟨reply, reserved, rfl⟩ := h.started
  have suits := suits_prepared hf.reply (.ack ∪ .psh)
  obtain ⟨-, data, rfl, filled⟩ := Reply.reserve_inv reserved
  refine ⟨⟨⟨suits.plain, suits.key_eq⟩, fun pending => ?_⟩, filled⟩
  exact absurd (h.permitted.2.2.symm.trans pending) Bool.false_ne_true

theorem Resets.suits {cause : Cause} (h : f.Resets stimulus cause g) (hf : (Flow.tcp f).Suits) :
    (Flow.tcp g).Suits := by
  cases h with
  | readError reads _ => exact (reads.suits hf).1
  | noRequest | request | connectError | noPeer | writeError => exact ⟨hf.reply, hf.waiting⟩

theorem Ends.suits {ending : Ending} (h : Ends stimulus f out ending g out')
    (hf : (Flow.tcp f).Suits) : (Flow.tcp g).Suits ∧
      ∀ sent, (Mark.closed ending call).sent? = some sent → Answers f.key sent.packet.bytes := by
  cases h with
  | finished _ _ _ emits =>
    obtain ⟨suits, answers⟩ := emits.suits ⟨hf.reply, hf.waiting⟩
    exact ⟨suits, fun sent same => Option.some.inj same ▸ answers⟩
  | reset resets emits =>
    obtain ⟨suits, answers⟩ := emits.suits (resets.suits hf)
    rw [resets.key_eq] at answers
    exact ⟨suits, fun sent same => Option.some.inj same ▸ answers⟩
  | resetByDevice | confirmed | refused | disconnected => exact ⟨⟨hf.reply, hf.waiting⟩, nofun⟩

/-- Whatever a flow offers to the device answers its key. -/
theorem Move.suits (h : Move stimulus ⟨f, r, out⟩ mark ⟨g, r', out'⟩) (hf : (Flow.tcp f).Suits) :
    (Flow.tcp g).Suits ∧ ∀ sent, mark.sent? = some sent → Answers f.key sent.packet.bytes := by
  cases h with
  | connected _ emits | took _ _ _ _ _ _ emits | ended _ _ _ emits | widened _ _ _ emits =>
    obtain ⟨suits, answers⟩ := emits.suits ⟨hf.reply, hf.waiting⟩
    exact ⟨⟨suits.reply, suits.waiting⟩, fun sent same => Option.some.inj same ▸ answers⟩
  | missed reads _ => exact ⟨(reads.suits hf).1, nofun⟩
  | delivered reads _ _ committed completed _ =>
    obtain ⟨suits, filled⟩ := reads.suits hf
    obtain ⟨carries, data, rfl, filled'⟩ :=
      Reply.commit_completeData_inv suits.reply.plain filled committed completed
    have answers := carries.answers suits.reply
    rw [Flow.key, reads.same.key_eq] at answers
    refine ⟨⟨⟨suits.reply.plain, suits.reply.key_eq⟩, fun _ => ?_⟩,
      fun sent same => Option.some.inj same ▸ answers⟩
    change Answers _ data.filled
    rw [filled', Flow.key, reads.same.key_eq]
    exact answers
  | retried _ pending latest _ =>
    have answers := hf.waiting pending
    have same : _ = f.reply.data.filled := Packet.bytes_of_ofBytes latest
    refine ⟨⟨hf.reply, fun _ => answers⟩, fun sent found => ?_⟩
    rw [← Option.some.inj found, same]
    exact answers
  | exhausted reads emits =>
    obtain ⟨suits, -⟩ := reads.suits hf
    obtain ⟨suits, answers⟩ := emits.suits ⟨suits.reply, suits.waiting⟩
    rw [reads.same.key_eq] at answers
    exact ⟨⟨suits.reply, suits.waiting⟩, fun sent same => Option.some.inj same ▸ answers⟩
  | closed _ ends _ =>
    obtain ⟨suits, answers⟩ := ends.suits hf
    exact ⟨⟨suits.reply, suits.waiting⟩, answers⟩
  | opened | reopened | unconnected | acknowledged | wrote | blocked | shut | told =>
    exact ⟨⟨hf.reply, hf.waiting⟩, nofun⟩

end

section

variable {σ : Type} [Outlet σ] {stimulus : Stimulus} {s t : Scene TcpFlow σ} {steps : List Step}

theorem Path.visit (h : Path stimulus s steps t) :
    Flow.Visit (s.map .tcp) (calls steps) (t.map .tcp) := by
  induction h with
  | quiet called => exact .of_after called
  | @move s mark g r out host move called =>
    have isOpen : s.self.isClosed = false := by simpa [isClosed] using move.isOpen
    rw [show calls [⟨s.self, mark, g⟩] = mark.calls s.self from List.append_nil _]
    exact .of_move isOpen move.sameFlow move.enrolled move.consistent called move.keepTo
  | append _ _ ih ih' =>
    simp only [calls, List.flatMap_append]
    exact ih.trans ih'

theorem ensures_ended : Ensures close s fun _ t =>
    ∃ calls, Flow.Ended (s.map .tcp) calls (t.map .tcp) := by
  by_cases closed : s.self.phase = .closed
  · have isClosed : s.self.isClosed = true := by simpa [TcpFlow.isClosed] using closed
    exact ensures_close_of_closed closed ⟨[], .of_after (.refl _), isClosed, rfl, rfl⟩
  refine ensures_close closed ?_
  intro registration call host cancels called
  have move : Move .disconnect ⟨s.self, s.registry, s.out⟩ (.closed .disconnected call) _ :=
    .closed closed (.disconnected rfl) cancels
  refine ⟨_, (Path.move move called).visit, rfl, ?_, rfl⟩
  simpa [calls, Mark.calls, Ending.calls] using cancels.onRegistration.posted_eq_nil

end

variable {stimulus : Stimulus} {s t : Scene TcpFlow Outbox} {steps : List Step}

theorem Path.turn (h : Path stimulus s steps t) :
    Flow.Turn (s.map .tcp) (calls steps) (t.map .tcp) := by
  induction h with
  | quiet called => exact .of_after called
  | move move called =>
    have visit := (Path.move move called).visit
    simp only [calls, List.flatMap_singleton] at visit ⊢
    exact .of_posts visit move.posts move.posted_eq move.suits
  | append _ _ ih ih' =>
    simp only [calls, List.flatMap_append]
    exact ih.trans ih'

/-- After a pull the flow waits if it still holds a packet back. -/
theorem ensures_pull_waits (consistent : s.self.phase ≠ .closed → Consistent s.self)
    (isOpen : s.self.isClosed = false) :
    Ensures pull s fun _ t => (∃ calls, Flow.Turn (s.map .tcp) calls (t.map .tcp)) ∧
      (Flow.tcp t.self).Waits t.out.waiting := by
  refine ensures_pull consistent ?_ ?_
  -- A flow that holds nothing back or is closed has nothing to wait for.
  · intro idle
    refine ⟨⟨_, .of_after (.refl _)⟩, fun pending => ?_⟩
    rcases idle with idle | closed
    · exact absurd (idle.symm.trans pending) Bool.false_ne_true
    · simp [isClosed, closed] at isOpen
  · intro step out host first steps t path _
    have turn := first.turn
    -- A packet that is refused once more enters the queue again, and no later move takes it out.
    have again : (Flow.tcp step.after).Waits (s.self.afterOffer (!step.after.pending) out).waiting := by
      intro pending
      replace pending : step.after.pending = true := pending
      have key : step.after.key = s.self.key := turn.key_eq
      rw [pending]
      change step.after.key ∈ (Outlet.await s.self.key out).waiting
      rw [key]
      exact Outbox.mem_waiting_await s.self.key out
    exact ⟨⟨_, turn.trans path.turn⟩, path.turn.waits again⟩

/-- A started flow has a new socket, which it registers or closes. -/
theorem ensures_opens {α σ : Type} {session : Nat} {key : FlowKey} {request : Packet} {config : Config}
    {s : Scene α σ} : Ensures (start session key request config) s fun result t =>
      ∃ calls, Flow.Opens session key request s calls (result.map .tcp) t := by
  simp only [start, ensures_bind, ensures_liftM]
  intro found hr
  split
  · refine (ensures_pure _).2 ⟨[], .of_error rfl rfl (Host.After.refl _).adds ?_ rfl (.refl _ _ _)⟩
    exact List.forall_mem_nil _
  next reply =>
  simp only [ensures_bind, ensures_call]
  obtain ⟨adds, created⟩ := Host.creates_connect s.host key.destination
  split
  · next kind _ =>
    refine (ensures_pure _).2 ⟨_, .of_error rfl rfl adds ?_ rfl (.of_adds adds ?_)⟩
    · simp [Event.socket?]
    · simp [Event.socket?]
  next socket hc =>
  obtain ⟨rfl, new⟩ := created socket hc
  have held : Exchange s.registry s.host [] s.registry (s.host.connect key.destination).2
      [⟨s.host.nextSocket, none⟩] :=
    .created (.of_adds adds (by simp [Event.socket?])) adds (by simp [Event.closes?]) new
  rw [ensures_bind]
  apply Registration.ensures_enter
  · intro host called
    simp only [ensures_bind, ensures_note, ensures_liftM, ensures_pure]
    intro ring _
    refine ⟨_, rfl, rfl, adds.trans (called.note _).adds, ?_, rfl, ?_, ?_, ?_⟩
    · simp [Event.socket?]
    · exact held.trans (.entered (called.note _).adds (Event.keepTo_register _ _ _ _))
    · rintro f ⟨⟩
      exact ⟨rfl, rfl, rfl, rfl, fun _ => consistent_of_new rfl rfl rfl rfl rfl⟩
    · rintro f bytes ⟨⟩ parsed routed
      exact ⟨Reply.suits_of_ofRequest parsed routed hr, by simp [Flow.pending]⟩
  · intro kind host called
    simp only [ensures_bind, ensures_tell, ensures_pure]
    refine ⟨_, .of_error rfl rfl ((adds.trans called.adds).trans (Host.adds_close _ _)) ?_ rfl ?_⟩
    · simp [Event.socket?]
    · refine (held.trans (.refused called.adds ?_)).trans (.close _ _ _)
      exact Event.keepTo_register _ _ _ _

end TcpFlow

end TunnelRelay
