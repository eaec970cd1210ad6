import TunnelRelay.Proofs.Flow.Udp.Idle
import TunnelRelay.Proofs.FlowTable.Independence
import TunnelRelay.Proofs.FlowTable.Sweep

/-!
# The age of the flows of a table

Whatever is asked of a table takes no time. Meanwhile a UDP flow is in use if a packet with its key is
sent or a datagram passes its socket; every other UDP flow only grows older.
-/

namespace TunnelRelay

open Act

theorem Packet.payload_ne_none {packet : Packet} (valid : packet.isValid = true) :
    packet.payload ≠ .ok none := by
  intro none
  unfold payload at none
  split at none
  · next absent => simp [isValid, absent] at valid
  · simp only [checked_bind_eq_ok, checked_map_eq_ok] at none
    obtain ⟨_, -, _, -, ⟨⟩⟩ := none

/-- A routable packet that an open flow was handed carries something. -/
theorem UdpFlow.ensures_receive_carries {σ : Type} [Outlet σ] {s : Scene UdpFlow σ} {packet : Packet}
    (isOpen : s.self.closed = false) (valid : packet.isValid = true) :
    Ensures (receive packet) s fun _ _ => ∃ payload, packet.payload = .ok (some payload) := by
  refine ensures_receive (fun ignored => ?_) fun payload _ _ carried _ _ _ _ _ _ _ _ => ⟨payload, carried⟩
  rcases ignored with closed | empty
  · exact absurd (isOpen.symm.trans closed) Bool.false_ne_true
  · exact absurd empty (Packet.payload_ne_none valid)

namespace Flow

variable {σ : Type} {s t : Scene Flow σ}

/-- Only a UDP flow becomes a UDP flow. -/
theorem udp_of_byProtocol {onTcp : Act TcpFlow σ Unit} {onUdp : Act UdpFlow σ Unit} {g : UdpFlow}
    (ran : byProtocol onTcp onUdp s = .ok ((), t)) (after : t.self = .udp g) :
    ∃ s' t' : Scene UdpFlow σ, s = s'.map .udp ∧ t = t'.map .udp ∧ onUdp s' = .ok ((), t') := by
  have all : Ensures (byProtocol onTcp onUdp) s fun _ t => ∀ g, t.self = .udp g →
      ∃ s' t' : Scene UdpFlow σ, s = s'.map .udp ∧ t = t'.map .udp ∧ onUdp s' = .ok ((), t') := by
    apply ensures_byProtocol
    · rintro _ _ _ _ _ _ ⟨⟩
    · rintro s' rfl _ t' performed _ _
      exact ⟨s', t', rfl, rfl, performed⟩
  exact all _ _ ran g after

/-- No time passes while a flow is started, and a UDP flow is in use then. -/
theorem idle_of_start {α : Type} {session : Nat} {key : FlowKey} {request : Packet} {config : Config}
    {s : Scene α σ} : Ensures (start session key request config) s fun result t =>
      t.host.clock = s.host.clock ∧ ∀ f, result = .ok (.udp f) →
        f.idleSince = s.host.clock ∧ f.idleTimeout = config.udpIdleTimeout := by
  intro result t started
  have clock : Ensures (start session key request config) s fun _ t =>
      t.host.clock = s.host.clock := by
    apply ensures_attempt
    · exact fun _ _ _ _ attempts _ => attempts.clock_eq
    · exact fun _ _ _ _ attempts _ => attempts.clock_eq
  refine ⟨clock _ _ started, ?_⟩
  rintro f rfl
  rcases eq_of_start started with ⟨_, ⟨⟩, -, -⟩ | ⟨_, ⟨⟩, -, started⟩
  obtain ⟨socket, token, reply, ring, -, -, rfl⟩ := UdpFlow.eq_of_start started
  exact ⟨rfl, rfl⟩

end Flow

/-- Nothing is read, sent or received when flows are ended. -/
theorem Flow.Discards.silent {flows : List Flow} {calls : List Event} (h : Discards flows calls) :
    ∀ e ∈ calls, ∀ socket, e.passes socket = false := by
  intro e mem socket
  obtain ⟨f, -, rfl | ⟨outcome, rfl⟩⟩ := h.only e mem <;> rfl

namespace FlowTable

def Operation.sent? : Operation → Option FlowKey
  | send packet => keyOf? packet
  | ready _ _ | pull _ | sweep _ | clear => none

theorem key?_of_sent? {operation : Operation} {key : FlowKey} (sent : operation.sent? = some key) :
    operation.key? = some key := by
  cases operation with
  | send => exact sent
  | ready | pull | sweep | clear => cases sent

/-- Where a UDP flow of a table comes from, at the time `now`, when flows have been `asked` to send. -/
inductive Ages (asked : FlowKey → Prop) (now limit : Nat) (calls : List Event) (flows : List Flow)
    (g : UdpFlow) : Prop where
  | kept {f : UdpFlow} (mem : .udp f ∈ flows) (ages : UdpFlow.Ages (asked g.key) now calls f g)
  | opened (asked : asked g.key) (since : g.idleSince = now) (timeout : g.idleTimeout = limit)

namespace Ages

variable {asked asked' : FlowKey → Prop} {now limit : Nat} {first second : List Event}
  {flows flows' : List Flow} {g : UdpFlow}

/-- What becomes of a flow that nobody has asked and no datagram has passed. -/
theorem of_silent (mem : .udp g ∈ flows) (unasked : ¬ asked g.key)
    (silent : ∀ e ∈ first, e.passes g.socket = false) : Ages asked now limit first flows g :=
  .kept mem ⟨rfl, rfl, rfl, .inr ⟨unasked, silent, rfl⟩⟩

theorem of_spares (mem : .udp g ∈ flows) (unasked : ¬ asked g.key)
    (spares : ∀ e ∈ first, e.Spares g.socket) : Ages asked now limit first flows g :=
  .of_silent mem unasked fun e he => Event.passes_of_spares (spares e he)

theorem congr (ages : Ages asked now limit first flows g) (same : asked g.key ↔ asked' g.key) :
    Ages asked' now limit first flows g := by
  cases ages with
  | kept mem ages => exact .kept mem (ages.congr same)
  | opened asked since timeout => exact .opened (same.1 asked) since timeout

theorem trans (before : ∀ f, .udp f ∈ flows' → Ages asked now limit first flows f)
    (after : Ages asked' now limit second flows' g) :
    Ages (fun key => asked key ∨ asked' key) now limit (first ++ second) flows g := by
  cases after with
  | opened asked since timeout => exact .opened (.inr asked) since timeout
  | kept mem ages' =>
    cases before _ mem with
    | kept mem ages => exact .kept mem ((ages.congr (by rw [ages'.key_eq])).trans ages')
    | opened asked since timeout =>
      refine .opened (.inl (ages'.key_eq ▸ asked)) ?_ (ages'.idleTimeout_eq.trans timeout)
      rcases ages'.since with ⟨-, now⟩ | ⟨-, -, unchanged⟩
      · exact now
      · exact unchanged.trans since

end Ages

variable {σ : Type} {s t : Scene FlowTable σ} {f : Flow} {g : UdpFlow} {key : FlowKey}
  {calls : List Event} {operation : Operation}

private theorem clock_onFlow {i : Nat} {act : Act Flow σ Unit} (hf : s.self.flows[i]? = some f)
    (acts : Ensures act { s with self := f } fun _ u => ∃ calls, Flow.Visit { s with self := f } calls u) :
    Ensures (onFlow i act) s fun _ t => t.host.clock = s.host.clock := by
  simp only [onFlow, ensures_bind, ensures_self, hf, ensures_runOn]
  refine acts.mono ?_
  rintro _ u ⟨calls, visit⟩
  have same : u.host.clock = s.host.clock := visit.called.clock_eq
  simp only [removeIfClosed, ensures_modifySelf, ensures_bind, ensures_self]
  split
  · exact (ensures_pure _).2 same
  split
  · simp only [ensures_bind, ensures_modifySelf, ensures_note, ensures_tell]
    exact same
  · exact (ensures_pure _).2 same

theorem clock_closeSockets {flows : List Flow} :
    Ensures (closeSockets flows) s fun _ t => t.host.clock = s.host.clock := by
  induction flows generalizing s with
  | nil => exact (ensures_pure _).2 rfl
  | cons flow rest ih =>
    rw [closeSockets, ensures_bind, ensures_tell]
    exact ih

variable [Outlet σ]

theorem isValid_of_keyOf? {packet : Packet} (known : keyOf? packet = some key) :
    packet.isValid = true := by
  refine Bool.of_not_eq_false fun invalid => ?_
  rw [keyOf?, FlowKey.ofPacket_eq_none_iff.2 invalid] at known
  cases known

private theorem ages_of_perform {s u : Scene Flow σ} {onTcp : Act TcpFlow σ Unit}
    (asked : UdpFlow.Operation) (isOpen : s.self.isClosed = false)
    (ran : Flow.byProtocol onTcp asked.perform s = .ok ((), u)) (after : u.self = .udp g) :
    ∃ (s' t' : Scene UdpFlow σ) (calls : List Event), s.self = .udp s'.self ∧
      s'.self.closed = false ∧ asked.perform s' = .ok ((), t') ∧ s.host.After calls u.host ∧
      UdpFlow.Ages (∃ payload, asked.stimulus = .datagram payload) s.host.clock calls s'.self g := by
  obtain ⟨s', t', rfl, rfl, performed⟩ := Flow.udp_of_byProtocol ran after
  obtain rfl : t'.self = g := Flow.udp.inj after
  obtain ⟨calls, called, ages⟩ := UdpFlow.ages_perform asked isOpen _ _ performed
  exact ⟨s', t', calls, rfl, isOpen, performed, called, ages⟩

/-- An open flow that acts is in use if it is handed the packet of a table. -/
theorem ages_act {u : Scene Flow σ} (operation : Operation) (isOpen : f.isClosed = false)
    (ran : operation.act { s with self := f } = .ok ((), u)) (after : u.self = .udp g)
    (about : operation.key? = some g.key) :
    ∃ f' calls, f = .udp f' ∧ s.host.After calls u.host ∧
      UdpFlow.Ages (operation.sent? = some g.key) s.host.clock calls f' g := by
  cases operation with
  | send packet =>
    obtain ⟨s', t', calls, same, isOpen', performed, called, ages⟩ :=
      ages_of_perform (.receive packet) isOpen ran after
    obtain ⟨payload, carried⟩ :=
      UdpFlow.ensures_receive_carries isOpen' (isValid_of_keyOf? about) _ _ performed
    refine ⟨_, calls, same, called, ages.congr (iff_of_true ⟨payload, ?_⟩ about)⟩
    rw [UdpFlow.Operation.stimulus, UdpFlow.Stimulus.ofPacket, carried]
  | ready key readiness =>
    obtain ⟨s', t', calls, same, -, -, called, ages⟩ :=
      ages_of_perform (.ready readiness) isOpen ran after
    exact ⟨_, calls, same, called, ages.congr (iff_of_false (by rintro ⟨_, ⟨⟩⟩) (by rintro ⟨⟩))⟩
  | pull key =>
    obtain ⟨s', t', calls, same, -, -, called, ages⟩ :=
      ages_of_perform .pull isOpen ran after
    exact ⟨_, calls, same, called, ages.congr (iff_of_false (by rintro ⟨_, ⟨⟩⟩) (by rintro ⟨⟩))⟩
  | sweep | clear => cases about

theorem ages_of_serves (standing : Standing s) (frames : Frames key s t)
    (serves : Serves operation key s t) (about : operation.key? = some key)
    (adds : s.host.Adds calls t.host) (mem : .udp g ∈ t.self.flows) :
    Ages (operation.sent? = some ·) s.host.clock s.self.config.udpIdleTimeout calls s.self.flows g := by
  by_cases own : g.key = key
  · subst own
    cases serves with
    | @acted f u mem' _ ran takes =>
      obtain ⟨isOpen, same⟩ := (takes.flow_iff (.udp g)).1 ⟨mem, rfl⟩
      obtain ⟨f', calls', rfl, called, ages⟩ :=
        ages_act operation (standing.isOpen f mem') ran same.symm about
      have all := takes.adds
      rw [isOpen, if_neg Bool.false_ne_true] at all
      rw [adds.unique (called.adds.trans all), List.append_nil]
      exact .kept mem' ages
    | @opened packet f u v absent asked started _ ran takes =>
      subst asked
      obtain ⟨-, same⟩ := (takes.flow_iff (.udp g)).1 ⟨mem, rfl⟩
      obtain ⟨_, opens⟩ := Flow.ensures_start _ _ started
      obtain ⟨-, -, -, isOpen, -⟩ := opens.fresh rfl
      obtain ⟨f', calls', rfl, -, ages⟩ :=
        ages_act (.send packet) isOpen ran same.symm about
      obtain ⟨clock, fresh⟩ := Flow.idle_of_start _ _ started
      obtain ⟨since, timeout⟩ := fresh f' rfl
      refine .opened about ?_ (ages.idleTimeout_eq.trans timeout)
      rcases ages.since with ⟨-, now⟩ | ⟨-, -, unchanged⟩
      · exact now.trans clock
      · exact unchanged.trans since
    | refused absent _ _ unchanged | missing absent _ unchanged =>
      rw [unchanged.self_eq] at mem
      exact absurd rfl (absent _ mem)
  · have found := (frames.others.mem_iff.1 (List.mem_filter.2 ⟨mem, by simp [Flow.key, own]⟩))
    have stayed := (List.mem_filter.1 found).1
    refine .of_spares stayed (fun sent => own ?_) (adds.spares (frames.aside _ stayed own))
    exact Option.some.inj ((key?_of_sent? sent).symm.trans about)

private theorem called_send_of_unroutable {packet : Packet} (unroutable : keyOf? packet = none) :
    Ensures (send packet) s fun _ t => t.self = s.self ∧ s.host.After [] t.host := by
  simp only [send, ensures_bind, ensures_self, ensures_liftM]
  intro found routed
  rw [keyOf?, routed] at unroutable
  subst unroutable
  simp only [ensures_bind, ensures_note]
  exact ⟨trivial, ((Host.After.refl _).note _).note _⟩

/-- Where the UDP flows of a table come from when it has done what it was asked. -/
theorem ages_perform (standing : Standing s) (performed : operation.perform s = .ok ((), t))
    (adds : s.host.Adds calls t.host) (mem : .udp g ∈ t.self.flows) :
    Ages (operation.sent? = some ·) s.host.clock s.self.config.udpIdleTimeout calls s.self.flows g := by
  cases operation with
  | send packet =>
    cases known : keyOf? packet with
    | none =>
      obtain ⟨same, called⟩ := called_send_of_unroutable known _ _ performed
      rw [same] at mem
      rw [adds.unique called.adds]
      refine .of_spares mem ?_ (List.forall_mem_nil _)
      rw [Operation.sent?, known]
      rintro ⟨⟩
    | some key =>
      obtain ⟨-, -, -, keyed⟩ := ensures_send_frames standing _ _ performed
      obtain ⟨frames, serves⟩ := keyed key known
      exact ages_of_serves standing frames serves known adds mem
  | ready key readiness =>
    obtain ⟨-, frames, serves⟩ := ensures_ready_frames standing _ _ performed
    exact ages_of_serves standing frames serves rfl adds mem
  | pull key =>
    obtain ⟨-, frames, serves⟩ := ensures_pull_frames standing _ _ performed
    exact ages_of_serves standing frames serves rfl adds mem
  | sweep now =>
    obtain ⟨u, loses, rfl⟩ := ensures_sweep_loses standing.isOpen _ _ performed
    obtain ⟨calls', called, discards⟩ := loses.cleared.called
    obtain rfl := adds.unique called.adds
    refine .of_silent (List.mem_filter.1 mem).1 (by rintro ⟨⟩) ?_
    exact fun e he => discards.silent e he _
  | clear =>
    have empty : t.self.flows = [] := by
      have all : Ensures (clear : Act FlowTable σ Unit) s fun _ t => t.self.flows = [] := by
        simp only [clear, ensures_bind, ensures_self, ensures_modifySelf]
        exact fun _ _ _ _ _ _ => trivial
      exact all _ _ performed
    rw [empty] at mem
    cases mem

theorem clock_disconnectAll {flows : List Flow} :
    Ensures (disconnectAll flows) s fun _ t => t.host.clock = s.host.clock := by
  induction flows generalizing s with
  | nil => exact (ensures_pure _).2 rfl
  | cons flow rest ih =>
    rw [disconnectAll, ensures_bind, ensures_runOn]
    refine Flow.ensures_disconnect.mono ?_
    rintro _ u ⟨calls, ended⟩
    exact ih.mono fun _ t same => same.trans ended.called.clock_eq

theorem clock_clear : Ensures clear s fun _ t => t.host.clock = s.host.clock := by
  simp only [clear, ensures_bind, ensures_self, ensures_modifySelf]
  refine clock_disconnectAll.mono fun _ t same => ?_
  exact clock_closeSockets.mono fun _ u same' => same'.trans same

/-- Whatever is asked of a table takes no time. -/
theorem clock_perform (standing : Standing s) :
    Ensures operation.perform s fun _ t => t.host.clock = s.host.clock := by
  cases operation with
  | send packet =>
    simp only [Operation.perform, send, ensures_bind, ensures_self, ensures_liftM]
    intro found _
    split
    · simp only [ensures_bind, ensures_note]
      rfl
    split
    · next i hi =>
      obtain ⟨f, hf, rfl⟩ := find?_eq_some hi
      have consistent := standing.consistent f (List.mem_of_getElem? hf)
      exact clock_onFlow hf (Flow.visits_receive consistent)
    rw [ensures_bind]
    intro result t started
    obtain ⟨clock, -⟩ := Flow.idle_of_start _ _ started
    obtain ⟨_, opens⟩ := Flow.ensures_start _ _ started
    rcases result with failure | f
    · exact (ensures_note _).2 clock
    · simp only [ensures_bind, ensures_modifySelf]
      obtain ⟨-, -, -, -, consistent⟩ := opens.fresh rfl
      have last : (t.self.flows ++ [f])[s.self.flows.length]? = some f := by
        rw [opens.self_eq, List.getElem?_concat_length]
      refine (clock_onFlow last (Flow.visits_receive consistent)).mono ?_
      exact fun _ u same => same.trans clock
  | ready key readiness =>
    simp only [Operation.perform, onReady, ensures_bind, ensures_self]
    split
    · exact (ensures_note _).2 rfl
    · next i hi =>
      obtain ⟨f, hf, rfl⟩ := find?_eq_some hi
      exact clock_onFlow hf Flow.visits_onReady
  | pull key =>
    simp only [Operation.perform, pull, ensures_bind, ensures_self]
    split
    · exact (ensures_pure _).2 rfl
    · next i hi =>
      obtain ⟨f, hf, rfl⟩ := find?_eq_some hi
      have consistent := standing.consistent f (List.mem_of_getElem? hf)
      exact clock_onFlow hf (Flow.visits_pull consistent)
  | sweep now =>
    refine (ensures_sweep_loses standing.isOpen).mono ?_
    rintro _ t ⟨u, loses, rfl⟩
    obtain ⟨calls, called, -⟩ := loses.cleared.called
    exact called.clock_eq
  | clear => exact clock_clear

end FlowTable

end TunnelRelay
