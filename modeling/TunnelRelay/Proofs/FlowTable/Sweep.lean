import TunnelRelay.Proofs.FlowTable

/-!
# What a sweep does to a table

A sweep ends the flows that have expired, one after the other: each loses its entry among the handlers
and its socket is closed. All other flows stay as they are.
-/

namespace TunnelRelay

open Act

namespace Registry

/-- The table without the entries for several tokens. -/
def without (r : Registry) (tokens : List Nat) : Registry :=
  { r with handlers := r.handlers.filter fun entry => entry.1 ∉ tokens }

variable {r : Registry}

theorem without_nil : r.without [] = r := by
  simp [without]

theorem without_cons (token : Nat) (tokens : List Nat) :
    r.without (token :: tokens) = (r.erase token).without tokens := by
  simp only [without, erase, List.filter_filter]
  refine congrArg (Registry.mk · _) (List.filter_congr fun entry _ => ?_)
  rw [Bool.eq_iff_iff]
  simp [and_comm]

theorem without_append (first second : List Nat) :
    r.without (first ++ second) = (r.without first).without second := by
  simp only [without, List.filter_filter]
  refine congrArg (Registry.mk · _) (List.filter_congr fun entry _ => ?_)
  simp [Bool.and_comm]

end Registry

/-- The sockets of the flows are closed, and nothing else is called but to tell the poller. -/
structure Flow.Discards (flows : List Flow) (calls : List Event) : Prop where
  closes : ∀ f ∈ flows, .close f.socket ∈ calls
  only : ∀ e ∈ calls, ∃ f ∈ flows, e = .close f.socket ∨ ∃ outcome, e = .deregister f.socket outcome

theorem Flow.Discards.append {flows flows' : List Flow} {calls calls' : List Event}
    (h : Discards flows calls) (h' : Discards flows' calls') :
    Discards (flows ++ flows') (calls ++ calls') where
  closes f mem := List.mem_append.2
    ((List.mem_append.1 mem).imp (h.closes f) (h'.closes f))
  only e mem := by
    rcases List.mem_append.1 mem with first | second
    · obtain ⟨f, hf, told⟩ := h.only e first
      exact ⟨f, List.mem_append_left _ hf, told⟩
    · obtain ⟨f, hf, told⟩ := h'.only e second
      exact ⟨f, List.mem_append_right _ hf, told⟩

/-- The flows have lost their entries among the handlers and their sockets. -/
structure Flow.Cleared (flows : List Flow) (r : Registry) (h : Host) (r' : Registry) (h' : Host) :
    Prop where
  registry_eq : r' = r.without (flows.map fun f => f.registration.token)
  called : ∃ calls, h.After calls h' ∧ Discards flows calls

theorem Flow.Cleared.refl (r : Registry) (h : Host) : Cleared [] r h r h :=
  ⟨Registry.without_nil.symm, [], .refl _, List.forall_mem_nil _, List.forall_mem_nil _⟩

theorem Flow.Cleared.trans {flows flows' : List Flow} {r r' r'' : Registry} {h h' h'' : Host}
    (first : Cleared flows r h r' h') (second : Cleared flows' r' h' r'' h'') :
    Cleared (flows ++ flows') r h r'' h'' := by
  obtain ⟨calls, called, discards⟩ := first.called
  obtain ⟨calls', called', discards'⟩ := second.called
  refine ⟨?_, _, called.trans called', discards.append discards'⟩
  rw [second.registry_eq, first.registry_eq, List.map_append, Registry.without_append]

namespace FlowTable

/-- The flows that a sweep ends. -/
def lapsed (now : Nat) (t : FlowTable) : List Flow := t.flows.filter fun f => f.isExpired now

def swept (now : Nat) (t : FlowTable) : FlowTable :=
  { t with flows := t.flows.filter fun f => !f.isExpired now }

variable {σ : Type} {s t u : Scene FlowTable σ} {flows : List Flow} {now : Nat}

/-- What is left of a scene when some flows have been ended. -/
structure Loses (flows : List Flow) (s t : Scene FlowTable σ) : Prop where
  self_eq : t.self = s.self
  out_eq : t.out = s.out
  cleared : Flow.Cleared flows s.registry s.host t.registry t.host

theorem Loses.refl (s : Scene FlowTable σ) : Loses [] s s := ⟨rfl, rfl, .refl _ _⟩

theorem Loses.trans {flows' : List Flow} (h : Loses flows s t) (h' : Loses flows' t u) :
    Loses (flows ++ flows') s u :=
  ⟨h'.self_eq.trans h.self_eq, h'.out_eq.trans h.out_eq, h.cleared.trans h'.cleared⟩

private theorem ensures_discard {f : UdpFlow} (isOpen : f.closed = false) :
    Ensures (do
      note (.flow f.key .expired)
      let _ ← runOn (.udp f) Flow.disconnect
      tell (Host.close f.socket)) s fun _ t => Loses [.udp f] s t := by
  simp only [ensures_bind, ensures_note, ensures_runOn, Flow.disconnect, Flow.byProtocol, ensures_self,
    ensures_on, ensures_tell]
  refine UdpFlow.ensures_disconnect_of_open isOpen ?_
  intro registration call host cancels called
  have noted := (Host.After.refl s.host).note (.flow f.key .expired)
  refine ⟨rfl, rfl, ?_, _, (noted.trans called).record rfl, ?_, ?_⟩
  · rw [List.map_singleton, Registry.without_cons, Registry.without_nil]
    rfl
  · simp [Flow.socket]
  · refine List.forall_mem_append.2 ⟨fun e mem => ?_, List.forall_mem_singleton.2 ?_⟩
    · have told := Option.mem_toList.1 mem
      cases cancels with
      | unknown => cases told
      | known _ outcome =>
        cases told
        exact ⟨_, List.mem_singleton_self _, .inr ⟨outcome, rfl⟩⟩
    · exact ⟨_, List.mem_singleton_self _, .inl rfl⟩

theorem ensures_keepUnexpired_loses (isOpen : ∀ f ∈ flows, f.isClosed = false) :
    Ensures (keepUnexpired now flows) s fun kept t =>
      kept = flows.filter (fun f => !f.isExpired now) ∧
        Loses (flows.filter fun f => f.isExpired now) s t := by
  induction flows generalizing s with
  | nil => exact (ensures_pure _).2 ⟨rfl, .refl s⟩
  | cons flow rest ih =>
    obtain ⟨first, others⟩ := List.forall_mem_cons.1 isOpen
    rw [keepUnexpired]
    split
    · next expired =>
      cases flow with
      | tcp f => cases expired
      | udp f =>
        have discard : Ensures _ s fun _ t => Loses [.udp f] s t := ensures_discard first
        simp only [ensures_bind, ensures_note, ensures_runOn, ensures_tell] at discard ⊢
        refine discard.mono ?_
        intro _ t gone
        refine (ih others).mono ?_
        rintro _ u ⟨rfl, loses⟩
        have all : Loses (.udp f :: rest.filter fun f => f.isExpired now) s u := gone.trans loses
        rw [List.filter_cons_of_neg (by simp [expired]), List.filter_cons_of_pos (by exact expired)]
        exact ⟨rfl, all⟩
    · next unexpired =>
      simp only [ensures_bind, ensures_pure]
      refine (ih others).mono ?_
      rintro _ t ⟨rfl, loses⟩
      simp [unexpired, loses]

/-- A sweep takes the expired flows from a table and leaves the others in their order. -/
theorem ensures_sweep_loses (isOpen : ∀ f ∈ s.self.flows, f.isClosed = false) :
    Ensures (sweep now) s fun _ t => ∃ u, Loses (s.self.lapsed now) s u ∧
      t = { u with self := s.self.swept now } := by
  simp only [sweep, ensures_bind, ensures_self]
  refine (ensures_keepUnexpired_loses isOpen).mono ?_
  rintro _ u ⟨rfl, loses⟩
  refine (ensures_modifySelf _).2 ⟨u, loses, ?_⟩
  rw [loses.self_eq]
  rfl

end FlowTable

end TunnelRelay
