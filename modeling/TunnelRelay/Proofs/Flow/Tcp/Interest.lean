import TunnelRelay.Proofs.Flow.Interest
import TunnelRelay.Proofs.Flow.Tcp.Faultless
import TunnelRelay.Proofs.Flow.Tcp.Turn

/-!
# The interest of a TCP flow

Whatever a flow is asked to do ends by telling the poller what it waits for, so that between its
operations the poller knows. It is only told what fits what it knows, and a flow that it refuses ends.
-/

namespace TunnelRelay

open Act

namespace TcpFlow

/-- The poller knows what an open flow waits for. -/
def Registered (f : TcpFlow) : Prop := f.phase ≠ .closed → f.registration.interest = f.wanted

theorem registered_of_start {α σ : Type} {session : Nat} {key : FlowKey} {request : Packet}
    {config : Config} {s t : Scene α σ} {f : TcpFlow}
    (started : start session key request config s = .ok (.ok f, t)) : Registered f := by
  obtain ⟨socket, token, reply, ring, -, -, rfl⟩ := eq_of_start started
  exact fun _ => rfl

variable {σ : Type} {s : Scene TcpFlow σ}

theorem registered_of_updateInterest : Ensures updateInterest s fun _ t => Registered t.self := by
  simp only [updateInterest, ensures_bind, ensures_self]
  split
  · next closed =>
    rw [ensures_pure]
    exact fun isOpen => absurd (by simpa [isClosed] using closed) isOpen
  next isOpen =>
  rw [ensures_bind]
  refine Registration.ensures_update ?_ ?_ ?_
  · exact fun same => (ensures_modifySelf _).2 fun _ => same
  · exact fun _ host _ => (ensures_modifySelf _).2 fun _ => rfl
  · intro _ kind host _
    simp only [ensures_bind, ensures_say]
    refine ensures_close (by simpa [isClosed] using isOpen) ?_
    exact fun _ _ _ _ _ closed => absurd rfl closed

/-- A poller that knows what the flow waits for is told nothing. -/
theorem achieves_updateInterest_of_registered {host : Host} (hs : Registered s.self)
    (called : s.host.After [] host) : Achieves updateInterest { s with host } fun _ t =>
      ∃ host, t = { s with host } ∧ s.host.After [] host := by
  simp only [updateInterest, achieves_bind, achieves_self]
  split
  · exact (achieves_pure _).2 ⟨host, rfl, called⟩
  · next isOpen =>
    have same := hs (by simpa [isClosed] using isOpen)
    rw [achieves_bind, Registration.update, if_pos same, achieves_pure, achieves_modifySelf]
    exact ⟨host, rfl, called⟩

variable [Outlet σ] {journal : List Step}

theorem registered_of_perform {operation : Operation} (hs : Registered s.self) :
    Ensures operation.perform s fun _ t => Registered t.self := by
  have after (act : Act TcpFlow σ Unit) {s : Scene TcpFlow σ} :
      Ensures (act >>= fun _ => updateInterest) s fun _ t => Registered t.self := by
    rw [ensures_bind]
    exact fun _ _ _ => registered_of_updateInterest
  cases operation with
  | receive packet =>
    simp only [Operation.perform, receive, ensures_bind, ensures_liftM]
    rintro (- | segment) -
    · exact (ensures_pure _).2 hs
    · simp only [ensures_bind, ensures_say, ensures_self]
      split
      · exact (ensures_pure _).2 hs
      · exact after _
      · split <;> exact after _
  | ready readiness =>
    simp only [Operation.perform, onReady, ensures_bind, ensures_self]
    split
    · exact (ensures_pure _).2 hs
    · exact registered_of_updateInterest
    · split
      · exact after _
      · exact registered_of_updateInterest
    · split
      · rw [ensures_bind]
        intro _ _ _
        split
        · exact after _
        · exact registered_of_updateInterest
      · split
        · exact after _
        · exact registered_of_updateInterest
  | pull =>
    simp only [Operation.perform, pull, ensures_bind, ensures_self]
    split
    · exact (ensures_pure _).2 hs
    · simp only [ensures_bind]
      intro _ _ _ _ _ _
      split
      · simp only [ensures_bind]
        intro _ _ _ _ _ _ _ _ _ _ _ _
        exact registered_of_updateInterest
      · exact after _
  | disconnect =>
    by_cases closed : s.self.phase = .closed
    · exact ensures_close_of_closed closed hs
    · exact ensures_close closed fun _ _ _ _ _ isOpen => absurd rfl isOpen

theorem Run.registered (run : Run journal s) : Registered s.self := by
  induction run with
  | start parsed tcp started => exact registered_of_start started
  | world _ _ _ _ ih => exact ih
  | act _ performed _ ih => exact registered_of_perform ih _ _ performed

section

variable {stimulus : Stimulus} {f g : TcpFlow} {r r' : Registry} {out out' : σ} {mark : Mark}
  {steps : List Step} {t : Scene TcpFlow σ}

theorem Resets.registration_eq {cause : Cause} (h : f.Resets stimulus cause g) :
    g.registration = f.registration := by
  cases h with
  | readError reads _ => exact reads.same.registration_eq
  | noRequest | request | connectError | noPeer | writeError => rfl

theorem Ends.registration_eq {ending : Ending} (h : Ends stimulus f out ending g out') :
    g.registration = f.registration := by
  cases h with
  | finished _ _ _ emits => exact emits.same.registration_eq
  | reset resets emits => exact emits.same.registration_eq.trans resets.registration_eq
  | resetByDevice | confirmed | refused | disconnected => rfl

/-- Whatever ends a flow, the poller learns nothing by it that it takes up. -/
theorem Ends.learnAll? {ending : Ending} (h : Ends stimulus f out ending g out') :
    Event.learnAll? f.socket f.registration.interest (ending.calls f.socket) =
      some g.registration.interest := by
  rw [h.registration_eq]
  cases h with
  | refused changed kind =>
    rw [Ending.calls, Event.learnAll?_singleton]
    exact Registration.learn?_pollerCall changed (some kind)
  | reset resets _ => cases resets <;> rfl
  | resetByDevice | confirmed | finished | disconnected => rfl

/-- The poller is told what fits, and knows what the registration says. -/
theorem Move.learnAll? (move : Move stimulus ⟨f, r, out⟩ mark ⟨g, r', out'⟩) :
    Event.learnAll? f.socket f.registration.interest (mark.calls f) =
      some g.registration.interest := by
  cases move with
  | told _ changed =>
    rw [Mark.calls, Event.learnAll?_singleton]
    exact Registration.learn?_pollerCall changed none
  | @closed _ g _ _ _ _ _ ends _ _ cancels =>
    have socket_eq : g.socket = f.socket := ends.sameFlow.socket_eq
    exact Event.learnAll?_append ends.learnAll? (socket_eq ▸ cancels.onRegistration.learnAll?)
  | connected _ emits | took _ _ _ _ _ _ emits | ended _ _ _ emits | widened _ _ _ emits =>
    exact congrArg some (congrArg _ emits.same.registration_eq.symm)
  | missed reads _ => exact congrArg some (congrArg _ reads.same.registration_eq.symm)
  | delivered reads _ _ _ _ _ =>
    refine (Event.learnAll?_of_learn? ?_).trans
      (congrArg some (congrArg _ reads.same.registration_eq.symm))
    simp only [Mark.calls]
    split <;> simp [Sent.call, Event.learn?]
  | retried _ _ _ _ =>
    refine Event.learnAll?_of_learn? ?_
    simp only [Mark.calls]
    split <;> simp [Sent.call, Event.learn?]
  | exhausted reads emits =>
    refine congrArg some (congrArg _ ?_)
    exact (emits.same.registration_eq.trans reads.same.registration_eq).symm
  | opened | reopened | unconnected | acknowledged | wrote | blocked | shut => rfl

/-- A flow that the poller refuses ends. -/
theorem Move.accepted (move : Move stimulus ⟨f, r, out⟩ mark ⟨g, r', out'⟩)
    (isOpen : g.phase ≠ .closed) : ∀ e ∈ mark.calls f, e.isRefusal = false := by
  cases move with
  | told _ _ => simp [Mark.calls, Registration.isRefusal_pollerCall]
  | closed _ _ _ => exact absurd rfl isOpen
  | delivered | retried =>
    simp only [Mark.calls]
    split <;> simp [Sent.call, Event.isRefusal]
  | _ => simp [Mark.calls, Sent.call, Event.isRefusal]

theorem Path.polls (path : Path stimulus s steps t) :
    Flow.Polls (s.map .tcp) (calls steps) (t.map .tcp) := by
  induction path with
  | quiet _ => exact .of_after
  | @move s mark g r out host move _ =>
    rw [show calls [⟨s.self, mark, g⟩] = mark.calls s.self from List.append_nil _]
    have isOpen : s.self.isClosed = false := by simpa [isClosed] using move.isOpen
    refine .of_move move.sameFlow isOpen move.enrolled move.learnAll? fun still => ?_
    exact move.accepted (by simpa [Scene.map, Flow.isClosed, isClosed] using still)
  | append _ _ ih ih' =>
    rw [calls_append]
    exact ih.trans ih'

/-- The poller knows what an open flow waits for, and has only been told what fits. -/
structure Mirrored (journal : List Step) (f : TcpFlow) : Prop where
  learned : Event.learnAll? f.socket (some .writable) (calls journal) = some f.registration.interest
  connecting : f.phase.isConnecting = true → f.registration.interest = some .writable
  connected : f.phase.isConnecting = false → f.phase ≠ .closed →
    f.registration.interest = Interest.of? f.mayRead (!f.ring.toList.isEmpty)

theorem Run.mirrored (run : Run journal s) : Mirrored journal s.self := by
  have learned : Event.learnAll? s.self.socket (some .writable) (calls journal) =
      some s.self.registration.interest := by
    refine run.invariant (I := fun journal f => Event.learnAll? f.socket (some .writable)
      (calls journal) = some f.registration.interest) ?_ ?_
    · exact fun fresh => congrArg some fresh.interest_eq.symm
    · intro stimulus journal f g r r' out out' mark learned move
      have socket_eq : g.socket = f.socket := move.sameFlow.socket_eq
      rw [calls_append, socket_eq]
      refine Event.learnAll?_append learned ?_
      simpa [calls] using move.learnAll?
  have empty : s.self.ring.isEmpty = s.self.ring.toList.isEmpty := by
    rw [Bool.eq_iff_iff, StreamRing.isEmpty_iff run.fit.sound, List.isEmpty_iff]
  refine ⟨learned, fun connecting => ?_, fun connected isOpen => ?_⟩
  · rw [run.registered ?_, wanted, if_pos connecting]
    rintro closed
    simp [closed, Phase.isConnecting] at connecting
  · rw [run.registered isOpen, wanted, if_neg (by simp [connected]), empty]

/-- Every operation extends the run by what it calls. A flow that the poller refuses meanwhile ends, and
has no entry among the handlers any more. -/
theorem Run.ends_of_refusal (run : Run journal s) {operation : Operation}
    (performed : operation.perform s = .ok ((), t)) : ∃ steps, Run (journal ++ steps) t ∧
      t.host.calls = (calls steps).reverse ++ s.host.calls ∧
      ((∃ e ∈ calls steps, e.isRefusal = true) → t.self.phase = .closed ∧
        t.registry = s.registry.erase s.self.registration.token) := by
  obtain ⟨steps, path, run', called⟩ := run.continues operation t performed
  refine ⟨steps, run', called, fun refused => ?_⟩
  obtain ⟨closed, registry_eq⟩ := path.polls.fate.ends_of_refusal refused
  exact ⟨by simpa [Scene.map, Flow.isClosed, isClosed] using closed, registry_eq⟩

end

end TcpFlow

end TunnelRelay
