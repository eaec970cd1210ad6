import TunnelRelay.Proofs.Flow.Interest
import TunnelRelay.Proofs.Flow.Udp.Readiness
import TunnelRelay.Proofs.Flow.Udp.Turn

/-!
# The interest of a UDP flow

Between its operations an open flow has told the poller that it waits for datagrams as long as no packet
is held back, and for the socket to take more as long as datagrams of the device are stored.
-/

namespace TunnelRelay

theorem DatagramRing.isEmpty_eq_toList (r : DatagramRing) : r.isEmpty = r.toList.isEmpty := by
  unfold isEmpty toList
  cases r.count <;> rfl

namespace UdpFlow

variable {σ : Type} [Outlet σ] {stimulus : Stimulus} {now : Nat} {f g : UdpFlow} {r r' : Registry}
  {out out' : σ} {mark : Mark} {journal steps : List Step} {s t : Scene UdpFlow σ}

/-- The poller is told what fits, and knows what the registration says. -/
theorem Move.learnAll? (move : Move stimulus now ⟨f, r, out⟩ mark ⟨g, r', out'⟩) :
    Event.learnAll? f.socket f.registration.interest (mark.calls f) =
      some g.registration.interest := by
  cases move with
  | told _ changed =>
    rw [Mark.calls, Event.learnAll?_singleton]
    exact Registration.learn?_pollerCall changed none
  | closed _ ends cancels =>
    have cancelled := cancels.learnAll?
    cases ends with
    | refused changed kind =>
      refine Event.learnAll?_append (Event.learnAll?_singleton.trans ?_) cancelled
      exact Registration.learn?_pollerCall changed (some kind)
    | sendError | receiveError | disconnected => exact Event.learnAll?_append rfl cancelled
  | delivered | retried =>
    refine Event.learnAll?_of_learn? ?_
    simp only [Mark.calls]
    split <;> simp [Sent.call, Event.learn?]
  | stored | dropped | forwarded | unsent | missed => rfl

/-- A flow that the poller refuses ends. -/
theorem Move.accepted (move : Move stimulus now ⟨f, r, out⟩ mark ⟨g, r', out'⟩)
    (isOpen : g.closed = false) : ∀ e ∈ mark.calls f, e.isRefusal = false := by
  cases move with
  | told _ _ => simp [Mark.calls, Registration.isRefusal_pollerCall]
  | closed _ _ _ => cases isOpen
  | delivered | retried =>
    simp only [Mark.calls]
    split <;> simp [Sent.call, Event.isRefusal]
  | stored | dropped | forwarded | unsent | missed => simp [Mark.calls, Event.isRefusal]

theorem Path.polls (path : Path stimulus s steps t) :
    Flow.Polls (s.map .udp) (calls steps) (t.map .udp) := by
  induction path with
  | quiet _ => exact .of_after
  | @move s mark g r out host move _ =>
    rw [show calls [⟨s.self, mark, g⟩] = mark.calls s.self from List.append_nil _]
    exact .of_move move.sameFlow move.isOpen move.enrolled move.learnAll? move.accepted
  | append _ _ ih ih' =>
    rw [calls_append]
    exact ih.trans ih'

structure Mirrored (journal : List Step) (f : UdpFlow) : Prop where
  learned : Event.learnAll? f.socket (some .readable) (calls journal) = some f.registration.interest
  interest_eq : f.closed = false →
    f.registration.interest = Interest.of? (!f.pending) (!f.ring.toList.isEmpty)

theorem Run.mirrored (run : Run journal s) : Mirrored journal s.self := by
  refine ⟨?_, fun isOpen => ?_⟩
  · refine run.invariant (I := fun journal f => Event.learnAll? f.socket (some .readable)
      (calls journal) = some f.registration.interest) ?_ ?_
    · exact fun fresh => congrArg some fresh.interest_eq.symm
    · intro stimulus now journal f g r r' out out' mark learned move
      have socket_eq : g.socket = f.socket := move.sameFlow.socket_eq
      rw [calls_append, socket_eq]
      refine Event.learnAll?_append learned ?_
      simpa [calls] using move.learnAll?
  · rw [run.registered isOpen, wanted, DatagramRing.isEmpty_eq_toList]

/-- Every operation extends the run by what it calls. A flow that the poller refuses meanwhile ends, and
has no entry among the handlers any more. -/
theorem Run.ends_of_refusal (run : Run journal s) {operation : Operation}
    (performed : operation.perform s = .ok ((), t)) : ∃ steps, Run (journal ++ steps) t ∧
      t.host.calls = (calls steps).reverse ++ s.host.calls ∧
      ((∃ e ∈ calls steps, e.isRefusal = true) → t.self.closed = true ∧
        t.registry = s.registry.erase s.self.registration.token) := by
  obtain ⟨steps, course, run', called⟩ := run.continues operation t performed
  exact ⟨steps, run', called, course.path.polls.fate.ends_of_refusal⟩

end UdpFlow

end TunnelRelay
