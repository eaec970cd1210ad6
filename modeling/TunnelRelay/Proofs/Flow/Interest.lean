import TunnelRelay.Proofs.Flow.Starting

/-!
# What the poller learns of a flow

Flows of both protocols keep their registration in step with the poller. A flow that the poller refuses
ends and loses its entry in the table of handlers.
-/

namespace TunnelRelay

open Act

namespace Flow

/-- Whatever comes of opening a flow, the poller is only told what fits. -/
theorem introduces_start {α σ : Type} {session : Nat} {key : FlowKey} {request : Packet}
    {config : Config} {s : Scene α σ} :
    Ensures (start session key request config) s fun result t =>
      ∃ calls, s.host.Adds calls t.host ∧ Introduces s.registry calls t.registry
        (result.map fun f => (f.socket, f.registration)) := by
  apply ensures_attempt
  · exact fun _ calls _ _ attempts recovers =>
      ⟨calls, attempts.adds, .failed recovers.handlers_subset⟩
  · exact fun _ calls _ _ attempts learned => ⟨calls, attempts.adds, .known learned⟩

variable {σ : Type} {s t u : Scene Flow σ} {calls first second : List Event}

/-- What becomes of a flow by the given calls. It goes on, and the poller refuses none of them; or it
ends and loses its entry; or it is over already, and nothing is called any more. -/
inductive Fate (s : Scene Flow σ) (calls : List Event) (t : Scene Flow σ) : Prop where
  | goesOn (isOpen : s.self.isClosed = false) (still : t.self.isClosed = false)
      (registry_eq : t.registry = s.registry) (accepted : ∀ e ∈ calls, e.isRefusal = false)
  | ends (isOpen : s.self.isClosed = false) (closed : t.self.isClosed = true)
      (registry_eq : t.registry = s.registry.erase s.self.registration.token)
  | past (closed : s.self.isClosed = true) (calls_eq : calls = []) (self_eq : t.self = s.self)
      (registry_eq : t.registry = s.registry)

theorem Fate.trans (h : Fate s first t) (h' : Fate t second u)
    (token_eq : t.self.registration.token = s.self.registration.token) :
    Fate s (first ++ second) u := by
  cases h with
  | goesOn isOpen still registry_eq accepted =>
    cases h' with
    | goesOn _ still' registry_eq' accepted' =>
      refine .goesOn isOpen still' (registry_eq'.trans registry_eq) fun e mem => ?_
      exact (List.mem_append.1 mem).elim (accepted e) (accepted' e)
    | ends _ closed registry_eq' =>
      exact .ends isOpen closed (by rw [registry_eq', registry_eq, token_eq])
    | past closed _ _ _ => cases still.symm.trans closed
  | ends isOpen closed registry_eq =>
    cases h' with
    | goesOn isOpen' _ _ _ | ends isOpen' _ _ => cases isOpen'.symm.trans closed
    | past _ _ self_eq registry_eq' =>
      exact .ends isOpen (self_eq ▸ closed) (registry_eq'.trans registry_eq)
  | past closed calls_eq self_eq registry_eq =>
    cases h' with
    | goesOn isOpen _ _ _ | ends isOpen _ _ => cases isOpen.symm.trans (self_eq ▸ closed)
    | past _ calls_eq' self_eq' registry_eq' =>
      subst calls_eq calls_eq'
      exact .past closed rfl (self_eq'.trans self_eq) (registry_eq'.trans registry_eq)

theorem Fate.of_after {host : Host} : Fate s [] { s with host } := by
  cases closed : s.self.isClosed with
  | true => exact .past closed rfl rfl rfl
  | false => exact .goesOn closed closed rfl (List.forall_mem_nil _)

/-- A flow that the poller refuses ends. -/
theorem Fate.ends_of_refusal (h : Fate s calls t) (refused : ∃ e ∈ calls, e.isRefusal = true) :
    t.self.isClosed = true ∧ t.registry = s.registry.erase s.self.registration.token := by
  obtain ⟨e, mem, refused⟩ := refused
  cases h with
  | goesOn _ _ _ accepted => cases (accepted e mem).symm.trans refused
  | ends _ closed registry_eq => exact ⟨closed, registry_eq⟩
  | past _ calls_eq _ _ =>
    subst calls_eq
    cases mem

/-- The poller is only told what fits, and knows what the registration says afterwards. -/
structure Polls (s : Scene Flow σ) (calls : List Event) (t : Scene Flow σ) : Prop where
  same : Same s.self t.self
  learned : Event.learnAll? s.self.socket s.self.registration.interest calls =
    some t.self.registration.interest
  fate : Fate s calls t

theorem Polls.of_after {host : Host} : Polls s [] { s with host } := ⟨.refl _, rfl, .of_after⟩

theorem Polls.of_move (same : Same s.self t.self) (isOpen : s.self.isClosed = false)
    (enrolled : s.self.Enrolled s.registry t.self t.registry)
    (learned : Event.learnAll? s.self.socket s.self.registration.interest calls =
      some t.self.registration.interest)
    (accepted : t.self.isClosed = false → ∀ e ∈ calls, e.isRefusal = false) : Polls s calls t := by
  refine ⟨same, learned, ?_⟩
  rcases enrolled with ⟨registry_eq, still⟩ | ⟨registry_eq, closed⟩
  · exact .goesOn isOpen still registry_eq (accepted still)
  · exact .ends isOpen closed registry_eq

theorem Polls.trans (h : Polls s first t) (h' : Polls t second u) : Polls s (first ++ second) u where
  same := h.same.trans h'.same
  learned := Event.learnAll?_append h.learned (h.same.socket_eq ▸ h'.learned)
  fate := h.fate.trans h'.fate h.same.token_eq

end Flow

end TunnelRelay
