import TunnelRelay.Proofs.Flow.Udp.Run
import TunnelRelay.Proofs.Flow.Udp.Turn

/-!
# When a UDP flow was last in use

A packet of the device that reaches a flow sets the time of its last use, and so does every datagram
that passes its socket. Nothing else does, so that a flow that was not in use only grows older.
-/

namespace TunnelRelay

open Act

/-- Whether a datagram has passed the socket, in one direction or the other. -/
def Event.passes (socket : SocketId) : Event → Bool
  | send other _ (.ok _) | receive other _ (.ok _) => other == socket
  | _ => false

theorem Event.passes_of_spares {e : Event} {socket : SocketId} (h : e.Spares socket) :
    e.passes socket = false := by
  unfold passes
  split
  · exact beq_false_of_ne fun same => h (congrArg some same)
  · exact beq_false_of_ne fun same => h (congrArg some same)
  · rfl

theorem Registration.passes_pollerCall {r : Registration} {socket other : SocketId}
    (wanted : Option Interest) (outcome : Outcome) :
    (r.pollerCall socket wanted outcome).passes other = false := by
  unfold pollerCall
  split <;> rfl

theorem Registration.Cancels.passes_eq {r registration : Registration} {socket other : SocketId}
    {call : Option Event} (h : r.Cancels socket registration call) :
    ∀ e ∈ call, e.passes other = false := by
  cases h with
  | unknown => rintro _ ⟨⟩
  | known => rintro _ ⟨⟩; rfl

namespace UdpFlow

/-- What becomes of a flow at the time `now`: it was in use, or it has only grown older. -/
structure Ages (asked : Prop) (now : Nat) (calls : List Event) (f g : UdpFlow) : Prop where
  key_eq : g.key = f.key
  socket_eq : g.socket = f.socket
  idleTimeout_eq : g.idleTimeout = f.idleTimeout
  since : (asked ∨ ∃ e ∈ calls, e.passes f.socket = true) ∧ g.idleSince = now ∨
    ¬ asked ∧ (∀ e ∈ calls, e.passes f.socket = false) ∧ g.idleSince = f.idleSince

namespace Ages

variable {asked asked' : Prop} {now : Nat} {calls first second : List Event} {f g h : UdpFlow}

theorem refl (now : Nat) (f : UdpFlow) : Ages False now [] f f :=
  ⟨rfl, rfl, rfl, .inr ⟨id, List.forall_mem_nil _, rfl⟩⟩

theorem congr (ages : Ages asked now calls f g) (same : asked ↔ asked') :
    Ages asked' now calls f g := by
  rw [← propext same]
  exact ages

theorem trans (ages : Ages asked now first f g) (ages' : Ages asked' now second g h) :
    Ages (asked ∨ asked') now (first ++ second) f h where
  key_eq := ages'.key_eq.trans ages.key_eq
  socket_eq := ages'.socket_eq.trans ages.socket_eq
  idleTimeout_eq := ages'.idleTimeout_eq.trans ages.idleTimeout_eq
  since := by
    have later := ages'.since
    rw [ages.socket_eq] at later
    rcases later with ⟨used, now'⟩ | ⟨unasked', silent', same'⟩
    · refine .inl ⟨?_, now'⟩
      rcases used with asked' | ⟨e, mem, passes⟩
      · exact .inl (.inr asked')
      · exact .inr ⟨e, List.mem_append_right _ mem, passes⟩
    rcases ages.since with ⟨used, now⟩ | ⟨unasked, silent, same⟩
    · refine .inl ⟨?_, same'.trans now⟩
      rcases used with asked | ⟨e, mem, passes⟩
      · exact .inl (.inl asked)
      · exact .inr ⟨e, List.mem_append_left _ mem, passes⟩
    · refine .inr ⟨fun either => either.elim unasked unasked', ?_, same'.trans same⟩
      exact List.forall_mem_append.2 ⟨silent, silent'⟩

end Ages

/-- Whether a packet of the device has reached the flow. -/
def Mark.isFromDevice : Mark → Bool
  | stored _ | dropped _ => true
  | _ => false

theorem Ending.passes_eq {ending : Ending} {stimulus : Stimulus} {f g : UdpFlow} {socket : SocketId}
    (h : Ends stimulus f ending g) : ∀ e ∈ ending.calls f.socket, e.passes socket = false := by
  cases h with
  | sendError | receiveError => exact List.forall_mem_singleton.2 rfl
  | refused => exact List.forall_mem_singleton.2 (Registration.passes_pollerCall _ _)
  | disconnected => exact List.forall_mem_nil _

variable {σ : Type} [Outlet σ] {stimulus : Stimulus} {s t : Scene UdpFlow σ} {steps : List Step}

/-- A move of the device, or one by which a datagram passes, is a use of the flow. -/
theorem Move.ages {now : Nat} {f g : UdpFlow} {r r' : Registry} {out out' : σ} {mark : Mark}
    (h : Move stimulus now ⟨f, r, out⟩ mark ⟨g, r', out'⟩) :
    Ages (mark.isFromDevice = true) now (mark.calls f) f g := by
  obtain ⟨key_eq, socket_eq, -⟩ := h.sameFlow
  have idle (old : mark.isFromDevice = false) (silent : ∀ e ∈ mark.calls f, e.passes f.socket = false)
      (timeout : g.idleTimeout = f.idleTimeout) (since : g.idleSince = f.idleSince) :
      Ages (mark.isFromDevice = true) now (mark.calls f) f g :=
    ⟨key_eq, socket_eq, timeout, .inr ⟨by simp [old], silent, since⟩⟩
  cases h with
  | stored | dropped => exact ⟨rfl, rfl, rfl, .inl ⟨.inl rfl, rfl⟩⟩
  | forwarded | delivered =>
    exact ⟨rfl, rfl, rfl, .inl ⟨.inr ⟨_, List.mem_cons_self, beq_self_eq_true _⟩, rfl⟩⟩
  | unsent | missed => exact idle rfl (List.forall_mem_singleton.2 rfl) rfl rfl
  | @retried _ _ _ _ _ _ sent =>
    refine idle rfl ?_ rfl rfl
    simp only [Mark.calls]
    split <;> simp [Sent.call, Event.passes]
  | told => exact idle rfl (List.forall_mem_singleton.2 (Registration.passes_pollerCall _ _)) rfl rfl
  | @closed _ _ _ _ _ _ ends _ _ cancels =>
    refine idle rfl (List.forall_mem_append.2 ⟨Ending.passes_eq ends, ?_⟩) ?_ ?_
    · exact fun e mem => cancels.passes_eq e (Option.mem_toList.1 mem)
    · cases ends <;> rfl
    · cases ends <;> rfl

theorem Path.ages (h : Path stimulus s steps t) :
    Ages (∃ step ∈ steps, step.mark.isFromDevice = true) s.host.clock (calls steps) s.self t.self := by
  induction h with
  | quiet => exact (Ages.refl _ _).congr (by simp)
  | move move _ =>
    simp only [calls, List.flatMap_singleton]
    exact move.ages.congr (by simp)
  | append first _ ih ih' =>
    rw [first.after.clock_eq] at ih'
    rw [calls_append]
    refine (ih.trans ih').congr ?_
    simp only [List.mem_append, or_and_right, exists_or]

/-- Only a packet that carries something reaches the flow. -/
theorem Path.not_isFromDevice (h : Path stimulus s steps t)
    (silent : ∀ payload, stimulus ≠ .datagram payload) :
    ¬ ∃ step ∈ steps, step.mark.isFromDevice = true := by
  refine h.invariant (I := fun journal _ => ¬ ∃ step ∈ journal, step.mark.isFromDevice = true) ?_ []
    (by simp)
  rintro now journal f g r r' out out' mark none move ⟨step, listed, reached⟩
  rcases List.mem_append.1 listed with earlier | last
  · exact none ⟨step, earlier, reached⟩
  · rw [List.mem_singleton.1 last] at reached
    cases move with
    | stored received _ _ | dropped received _ _ => exact silent _ received
    | forwarded | unsent | missed | delivered | retried | told | closed => cases reached

/-- Whatever an open flow is asked to do, it is in use if it is handed a packet that carries something or
if a datagram passes its socket meanwhile, and not otherwise. -/
theorem ages_perform (operation : Operation) (isOpen : s.self.closed = false) :
    Ensures operation.perform s fun _ t => ∃ calls, s.host.After calls t.host ∧
      Ages (∃ payload, operation.stimulus = .datagram payload) s.host.clock calls s.self t.self := by
  have other {t : Scene UdpFlow σ} {steps : List Step} (path : Path operation.stimulus s steps t)
      (silent : ∀ payload, operation.stimulus ≠ .datagram payload) :
      ∃ calls, s.host.After calls t.host ∧
        Ages (∃ payload, operation.stimulus = .datagram payload) s.host.clock calls s.self t.self := by
    refine ⟨_, path.after, path.ages.congr (iff_of_false (path.not_isFromDevice silent) ?_)⟩
    rintro ⟨payload, received⟩
    exact silent payload received
  cases operation with
  | receive packet =>
    refine ensures_receive (fun ignored => ?_) ?_
    · have empty : packet.payload = .ok none :=
        ignored.resolve_left (by simp [isOpen])
      have silent : (Operation.receive packet).stimulus = .other := by
        rw [Operation.stimulus, Stimulus.ofPacket, empty]
      refine other (.quiet (.refl _)) ?_
      rw [silent]
      rintro _ ⟨⟩
    · intro payload stored ring carried _ _ step steps t first _ passage
      have received : (Operation.receive packet).stimulus = .datagram payload := by
        rw [Operation.stimulus, Stimulus.ofPacket, carried]
      have reached : step.mark.isFromDevice = true := by
        rw [first]
        cases stored <;> rfl
      refine ⟨_, passage.path.after, passage.path.ages.congr (iff_of_true ?_ ⟨payload, received⟩)⟩
      exact ⟨step, List.mem_cons_self, reached⟩
  | ready readiness =>
    refine (reaches_onReady readiness s).mono ?_
    rintro _ t ⟨steps, passage⟩
    exact other passage.path (by rintro _ ⟨⟩)
  | pull =>
    refine (reaches_pull s).mono ?_
    rintro _ t ⟨steps, passage⟩
    exact other passage.path (by rintro _ ⟨⟩)
  | disconnect =>
    refine (reaches_close s).mono ?_
    rintro _ t ⟨steps, passage⟩
    exact other passage.path (by rintro _ ⟨⟩)

end UdpFlow

end TunnelRelay
