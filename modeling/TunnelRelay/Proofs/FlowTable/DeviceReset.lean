import TunnelRelay.Proofs.Flow.Tcp.Retransmission
import TunnelRelay.Proofs.FlowTable.Independence
import TunnelRelay.Proofs.FlowTable.Sweep

/-!
# Resets by the device

A device that resets a flow wants to hear no more of it. The flow's table keeps to this if the flow is
there and the packet does not ask for a connection at the same time. Such a request is heard before
the reset, and the first packet of a key opens a flow before anyone looks for a reset in it.
-/

namespace TunnelRelay

open Act

namespace Host

/-- The packets that were offered to the device so far, latest first. -/
def offers (h : Host) : List Event := h.calls.filter Event.isOffer

variable {h h' : Host} {calls : List Event}

theorem Adds.offers_eq (hc : h.Adds calls h') :
    h'.offers = (calls.filter Event.isOffer).reverse ++ h.offers := by
  rw [offers, hc.calls_eq, List.filter_append, List.filter_reverse, offers]

theorem Adds.offers_eq_iff (hc : h.Adds calls h') :
    h'.offers = h.offers ↔ calls.filter Event.isOffer = [] := by
  simp [hc.offers_eq]

/-- None of the calls that start a flow says anything to the device. -/
theorem Attempts.offers_eq (hc : h.Attempts calls h') : h'.offers = h.offers := by
  refine hc.adds.offers_eq_iff.2 (List.filter_eq_nil_iff.2 fun e mem => ?_)
  have needed := hc.only e mem
  cases e with
  | offer => cases needed
  | _ => exact Bool.false_ne_true

end Host

namespace TcpFlow

variable {σ : Type} {s : Scene TcpFlow σ}

/-- A flow that ends says nothing of its own accord. -/
theorem achieves_close_silently (isOpen : s.self.phase ≠ .closed) : Achieves close s fun _ t =>
    t.self.phase = .closed ∧ t.host.offers = s.host.offers := by
  have ends : Achieves close s fun _ _ => True := by
    simp only [close, setPhase, achieves_bind, achieves_self]
    split
    · exact (achieves_pure _).2 trivial
    · simp only [achieves_bind, achieves_self, achieves_say, achieves_modifySelf]
      exact (Registration.achieves_cancel _ _).mono fun _ _ _ => trivial
  have silent : Ensures close s fun _ t =>
      t.self.phase = .closed ∧ t.host.offers = s.host.offers := by
    refine ensures_close isOpen ?_
    intro registration call host cancels called
    refine ⟨rfl, called.adds.offers_eq_iff.2 ?_⟩
    cases cancels <;> rfl
  obtain ⟨_, t, ended, -⟩ := ends
  exact ⟨(), t, ended, silent () t ended⟩

variable [Outlet σ] {packet : Packet} {segment : Segment}

private theorem achieves_handleSegment_of_reset (isOpen : s.self.phase ≠ .closed)
    (rst : segment.flags.has .rst = true) : Achieves (handleSegment segment) s fun _ t =>
      t.self.phase = .closed ∧ t.host.offers = s.host.offers := by
  simp only [handleSegment, achieves_bind, achieves_self]
  rw [if_pos rst]
  simp only [achieves_bind, achieves_say]
  refine (achieves_close_silently ?_).mono fun _ _ silent => silent
  exact isOpen

/-- A flow that has asked the host to connect is ended by a reset, and says nothing to the device. -/
theorem achieves_receive_of_reset (asked : s.self.phase ≠ .initial) (isOpen : s.self.phase ≠ .closed)
    (read : Segment.ofPacket packet = .ok (some segment)) (rst : segment.flags.has .rst = true)
    (not_syn : segment.flags.has .syn = false) : Achieves (receive packet) s fun _ t =>
      t.self.phase = .closed ∧ t.host.offers = s.host.offers := by
  simp only [receive, achieves_bind, achieves_liftM]
  refine ⟨some segment, read, ?_⟩
  -- Neither the initial phase nor the closed one is left.
  simp only [achieves_bind, achieves_say, achieves_self]
  rw [if_neg (by simp [not_syn]), achieves_bind]
  refine (achieves_handleSegment_of_reset ?_ rst).mono ?_
  · exact isOpen
  rintro _ t ⟨closed, silent⟩
  simp only [updateInterest, achieves_bind, achieves_self]
  rw [if_pos (by simp [isClosed, closed]), achieves_pure]
  exact ⟨closed, silent⟩

private theorem ensures_reset_answers (isOpen : s.self.phase ≠ .closed) :
    Ensures (reset >>= fun _ => updateInterest) s fun _ t => t.host.offers ≠ s.host.offers := by
  rw [ensures_bind]
  refine ensures_reset isOpen ?_
  intro sent g out registration call host _ _ called
  simp only [updateInterest, ensures_bind, ensures_self]
  rw [if_pos (by simp [isClosed]), ensures_pure, Ne, called.adds.offers_eq_iff]
  simp [Sent.call, Event.isOffer]

omit [Outlet σ] in
private theorem ensures_updateInterest_stays_open (registered : Registered s.self)
    (isOpen : s.self.phase ≠ .closed) :
    Ensures updateInterest s fun _ t => t.self.isClosed = false := by
  refine ((achieves_updateInterest_of_registered registered (.refl _)).ensures).mono ?_
  rintro _ _ ⟨host, rfl, -⟩
  simpa [isClosed] using isOpen

/-- The first packet of a flow and every packet that asks for a connection leave the flow open, or an
answer is offered to the device. -/
theorem ensures_receive_of_request (registered : Registered s.self) (isOpen : s.self.phase ≠ .closed)
    (read : Segment.ofPacket packet = .ok (some segment))
    (request : s.self.phase = .initial ∨ segment.flags.has .syn = true) :
    Ensures (receive packet) s fun _ t =>
      t.self.isClosed = false ∨ t.host.offers ≠ s.host.offers := by
  have known := registered isOpen
  simp only [receive, ensures_bind, ensures_liftM]
  intro found read'
  cases read'.symm.trans read
  simp only [ensures_bind, ensures_say, ensures_self]
  split
  · next closed => exact absurd closed isOpen
  · next initial =>
    simp only [ensures_bind, handleFirst]
    split
    · simp only [ensures_bind, ensures_call, ensures_modifySelf]
      apply ensures_setPhase
      intro host _
      refine (ensures_updateInterest_stays_open ?_ ?_).mono fun _ _ => .inl
      · intro _
        simpa [wanted, initial, Phase.isConnecting] using known
      · simp
    · simp only [ensures_bind, ensures_say, ensures_liftM, ensures_modifySelf]
      intro length _
      rw [← ensures_bind]
      refine (ensures_reset_answers ?_).mono fun _ _ => .inr
      exact isOpen
  · next initial =>
    rw [if_pos (request.resolve_left initial)]
    simp only [ensures_bind, handleSyn, ensures_self]
    split
    · next sent =>
      simp only [ensures_bind, ensures_say, ensures_modifySelf]
      refine (ensures_updateInterest_stays_open ?_ ?_).mono fun _ _ => .inl
      · intro _
        simpa [wanted, sent, Phase.isConnecting] using known
      · simp [sent]
    · simp only [ensures_bind, ensures_say]
      rw [← ensures_bind]
      refine (ensures_reset_answers ?_).mono fun _ _ => .inr
      exact isOpen

/-- A reset ends an open flow without an answer just if it is not its first packet and does not ask for
a connection. -/
theorem ensures_receive_of_rst (registered : Registered s.self) (isOpen : s.self.phase ≠ .closed)
    (read : Segment.ofPacket packet = .ok (some segment)) (rst : segment.flags.has .rst = true) :
    Ensures (receive packet) s fun _ t =>
      t.self.isClosed = true ∧ t.host.offers = s.host.offers ↔
        s.self.phase ≠ .initial ∧ segment.flags.has .syn = false := by
  by_cases final : s.self.phase ≠ .initial ∧ segment.flags.has .syn = false
  · refine (achieves_receive_of_reset final.1 isOpen read rst final.2).ensures.mono ?_
    rintro _ t ⟨closed, silent⟩
    exact iff_of_true ⟨by simp [isClosed, closed], silent⟩ final
  · have request : s.self.phase = .initial ∨ segment.flags.has .syn = true := by
      simpa [or_iff_not_imp_left] using final
    refine (ensures_receive_of_request registered isOpen read request).mono ?_
    rintro _ t (stays | answered)
    · exact iff_of_false (fun silenced => by simp [stays] at silenced) final
    · exact iff_of_false (fun silenced => answered silenced.2) final

/-- A flow that has asked the host to connect never goes back to its beginning. -/
theorem Move.stays_asked {stimulus : Stimulus} {f g : TcpFlow} {r r' : Registry} {out out' : σ}
    {mark : Mark} (move : Move stimulus ⟨f, r, out⟩ mark ⟨g, r', out'⟩) (hf : f.phase ≠ .initial) :
    g.phase ≠ .initial := by
  by_cases connected : f.phase.isConnecting = false
  · exact (not_initial_of_connected (move.stays_connected connected)).1
  have same {phase : Phase} (h : phase = f.phase) : phase ≠ .initial := h ▸ hf
  cases move with
  | opened _ _ _ _ => simp
  | reopened _ _ _ => exact hf
  | unconnected _ _ => exact hf
  | connected _ emits =>
    have phase : _ = Phase.synReceived := emits.same.phase_eq
    simp [phase]
  | acknowledged _ inOrder _ _ => exact absurd inOrder.connected connected
  | took _ _ _ _ _ _ emits => exact same emits.same.phase_eq
  | ended _ atEnd _ _ => exact absurd atEnd.connected connected
  | missed reads _ => exact same reads.same.phase_eq
  | delivered reads _ _ _ _ _ => exact same reads.same.phase_eq
  | retried _ _ _ _ => exact hf
  | exhausted reads _ => exact absurd reads.connected connected
  | wrote _ _ _ => exact hf
  | blocked _ _ => exact hf
  | widened _ _ _ emits => exact same emits.same.phase_eq
  | shut _ _ _ _ _ => exact hf
  | told _ _ => exact hf
  | closed _ _ _ => simp

theorem Path.stays_asked {stimulus : Stimulus} {steps : List Step} {t : Scene TcpFlow σ}
    (path : Path stimulus s steps t) (hs : s.self.phase ≠ .initial) : t.self.phase ≠ .initial :=
  path.invariant (I := fun _ f => f.phase ≠ .initial) (fun hf move => move.stays_asked hf) [] hs

/-- The flow has asked the host to connect, and the poller knows what it waits for. -/
structure Underway (f : TcpFlow) : Prop where
  asked : f.phase ≠ .initial
  registered : Registered f

theorem underway_of_perform {operation : Operation}
    (consistent : s.self.phase ≠ .closed → Consistent s.self) (hs : Underway s.self) :
    Ensures operation.perform s fun _ t => Underway t.self := by
  have asked : Ensures operation.perform s fun _ t => t.self.phase ≠ .initial := by
    cases operation with
    | receive packet =>
      exact ensures_receive consistent fun _ _ _ _ reception _ =>
        reception.path.stays_asked hs.asked
    | ready readiness =>
      exact ensures_onReady fun _ _ course => course.path.stays_asked hs.asked
    | pull =>
      exact ensures_pull consistent (fun _ => hs.asked)
        fun _ _ _ _ _ _ _ course => course.path.stays_asked hs.asked
    | disconnect => exact ensures_disconnect fun _ _ course => course.path.stays_asked hs.asked
  exact fun _ t performed =>
    ⟨asked _ t performed, registered_of_perform hs.registered _ t performed⟩

/-- The packet that opens a flow makes it ask the host to connect, or ends it. -/
theorem underway_of_receive (initial : s.self.phase = .initial) (registered : Registered s.self)
    (tcp : Segment.ofPacket packet ≠ .ok none) :
    Ensures (receive packet) s fun _ t => Underway t.self := by
  have later {t : Scene TcpFlow σ} (asked : t.self.phase ≠ .initial) :
      Ensures updateInterest t fun _ u => u.self.phase ≠ .initial :=
    ensures_updateInterest .other fun _ _ course => course.path.stays_asked asked
  have asked : Ensures (receive packet) s fun _ t => t.self.phase ≠ .initial := by
    simp only [receive, ensures_bind, ensures_liftM]
    rintro (- | segment) read
    · exact absurd read tcp
    simp only [ensures_bind, ensures_say, ensures_self, initial, handleFirst]
    split
    · simp only [ensures_bind, ensures_call, ensures_modifySelf]
      exact ensures_setPhase fun _ _ => later (by simp)
    · simp only [ensures_bind, ensures_say, ensures_liftM, ensures_modifySelf]
      intro length _
      refine ensures_reset (by simp [initial]) ?_
      exact fun _ _ _ _ _ _ _ _ _ => later (by simp)
  have kept : Ensures (Operation.receive packet).perform s fun _ t => Registered t.self :=
    registered_of_perform registered
  exact fun _ t performed => ⟨asked _ t performed, kept _ t performed⟩

end TcpFlow

namespace Flow

variable {σ : Type}

/-- A TCP flow is underway, and the flow is one of its key's protocol. -/
def Introduced : Flow → Prop
  | tcp f => f.key.protocol = .tcp ∧ f.Underway
  | udp f => f.key.protocol = .udp

/-- A flow that is started has the protocol of its key, and a TCP flow is then at its beginning. -/
theorem protocol_of_start {α : Type} {session : Nat} {key : FlowKey} {request : Packet}
    {config : Config} {s t : Scene α σ} {f : Flow}
    (started : start session key request config s = .ok (.ok f, t)) :
    match f with
    | .tcp f => f.key = key ∧ key.protocol = .tcp ∧ f.phase = .initial ∧ f.Registered
    | .udp f => f.key = key ∧ key.protocol = .udp := by
  rcases eq_of_start started with ⟨g, rfl, protocol, started⟩ | ⟨g, rfl, protocol, started⟩
  · have registered := TcpFlow.registered_of_start started
    obtain ⟨socket, token, reply, ring, -, -, rfl⟩ := TcpFlow.eq_of_start started
    exact ⟨rfl, protocol, rfl, registered⟩
  · obtain ⟨socket, token, reply, ring, -, -, rfl⟩ := UdpFlow.eq_of_start started
    exact ⟨rfl, protocol⟩

/-- Nothing is said to the device when a flow is started. -/
theorem ensures_start_silently {α : Type} {session : Nat} {key : FlowKey} {request : Packet}
    {config : Config} {s : Scene α σ} :
    Ensures (start session key request config) s fun _ t => t.host.offers = s.host.offers := by
  apply ensures_attempt
  · exact fun _ _ _ _ attempts _ => attempts.offers_eq
  · exact fun _ _ _ _ attempts _ => attempts.offers_eq

variable [Outlet σ]

theorem introduced_of_act {s : Scene Flow σ} {operation : FlowTable.Operation}
    (consistent : s.self.Consistent) (hs : s.self.Introduced) :
    Ensures operation.act s fun _ t => t.self.Introduced := by
  have keyed : Ensures operation.act s fun _ t => t.self.key = s.self.key := by
    cases operation with
    | send packet => exact (visits_receive consistent).mono fun _ _ ⟨_, visit⟩ => visit.key_eq
    | ready _ _ => exact visits_onReady.mono fun _ _ ⟨_, visit⟩ => visit.key_eq
    | pull _ => exact (visits_pull consistent).mono fun _ _ ⟨_, visit⟩ => visit.key_eq
    | sweep _ | clear => exact (ensures_pure _).2 rfl
  have byProtocol_kept (asked : TcpFlow.Operation) (onUdp : Act UdpFlow σ Unit) :
      Ensures (byProtocol asked.perform onUdp) s fun _ t =>
        t.self.key = s.self.key → t.self.Introduced := by
    apply ensures_byProtocol
    · rintro s rfl
      refine (TcpFlow.underway_of_perform consistent hs.2).mono ?_
      exact fun _ _ underway key_eq => ⟨(congrArg FlowKey.protocol key_eq).trans hs.1, underway⟩
    · rintro s rfl _ t - key_eq
      exact (congrArg FlowKey.protocol key_eq).trans hs
  have kept : Ensures operation.act s fun _ t => t.self.key = s.self.key → t.self.Introduced := by
    cases operation with
    | send packet => exact byProtocol_kept (.receive packet) _
    | ready _ readiness => exact byProtocol_kept (.ready readiness) _
    | pull _ => exact byProtocol_kept .pull _
    | sweep _ | clear => exact (ensures_pure _).2 fun _ => hs
  exact fun _ t performed => kept _ t performed (keyed _ t performed)

theorem ensures_receive_of_rst {s : Scene Flow σ} {f : TcpFlow} {packet : Packet} {segment : Segment}
    (self_eq : s.self = .tcp f) (registered : f.Registered) (isOpen : s.self.isClosed = false)
    (read : Segment.ofPacket packet = .ok (some segment)) (rst : segment.flags.has .rst = true) :
    Ensures (receive packet) s fun _ t =>
      t.self.isClosed = true ∧ t.host.offers = s.host.offers ↔
        f.phase ≠ .initial ∧ segment.flags.has .syn = false := by
  apply ensures_byProtocol
  · rintro s rfl
    cases self_eq
    refine (TcpFlow.ensures_receive_of_rst registered ?_ read rst).mono fun _ _ ended => ended
    simpa [Scene.map, Flow.isClosed, TcpFlow.isClosed] using isOpen
  · rintro s rfl
    cases self_eq

end Flow

theorem FlowKey.exists_transport {packet : Packet} {key : FlowKey}
    (routed : ofPacket packet = .ok (some key)) :
    ∃ transport, packet.transportHeader = .ok (some transport) ∧
      transport.protocol = key.protocol := by
  simp only [ofPacket, checked_bind_eq_ok] at routed
  obtain ⟨- | transport, read, routed⟩ := routed
  · simp at routed
  simp only [checked_bind_eq_ok, checked_pure_eq_ok] at routed
  obtain ⟨_, -, same⟩ := routed
  cases same
  exact ⟨transport, read, rfl⟩

def TransportHeader.tcp? : TransportHeader → Option TcpHeader
  | tcp header => some header
  | udp _ => none

namespace Packet

variable {packet : Packet}

theorem tcp_eq {transport : TransportHeader}
    (read : packet.transportHeader = .ok (some transport)) : packet.tcp = .ok transport.tcp? := by
  rw [tcp, read]
  cases transport <;> rfl

theorem segment_ne_none {key : FlowKey} (routed : FlowKey.ofPacket packet = .ok (some key))
    (protocol : key.protocol = .tcp) : Segment.ofPacket packet ≠ .ok none := by
  obtain ⟨transport, read, same⟩ := FlowKey.exists_transport routed
  rw [Segment.ofPacket, tcp_eq read]
  cases transport with
  | udp _ => cases same.trans protocol
  | tcp header => simp [TransportHeader.tcp?, ok_bind]

/-- A packet with a segment is one of a TCP flow. -/
theorem Judged.key_of_segment {segment : Segment} (judged : packet.Judged)
    (read : Segment.ofPacket packet = .ok (some segment)) :
    ∃ key, FlowKey.ofPacket packet = .ok (some key) ∧ key.protocol = .tcp := by
  obtain ⟨- | key, routed, -⟩ := judged.flowKey_isOk
  · have invalid : packet.transport = none := by
      simpa [isValid] using FlowKey.ofPacket_eq_none_iff.1 routed
    have absent : packet.tcp = .ok none := by
      rw [tcp, transportHeader, invalid]
      rfl
    rw [Segment.ofPacket, absent] at read
    cases read
  · obtain ⟨transport, header, same⟩ := FlowKey.exists_transport routed
    refine ⟨key, routed, ?_⟩
    rw [Segment.ofPacket, tcp_eq header] at read
    cases transport with
    | udp _ => cases read
    | tcp _ => exact same.symm

end Packet

namespace FlowTable

variable {σ : Type} [Outlet σ] {s t : Scene FlowTable σ} {key : FlowKey}

/-- What holds of every flow that a table takes up, and is kept by a flow that acts, holds of all flows
of a table. -/
theorem Run.forall_flows {P : Flow → Prop}
    (acts : ∀ {operation : Operation} {s : Scene Flow σ}, s.self.Consistent → P s.self →
      Ensures operation.act s fun _ t => P t.self)
    (opens : ∀ {packet : Packet} {key : FlowKey} {s u : Scene FlowTable σ} {f : Flow},
      keyOf? packet = some key →
      Flow.start s.self.session key packet s.self.config s = .ok (.ok f, u) →
      Ensures (Flow.receive packet) { u with self := f } fun _ t => P t.self)
    (run : Run s) : ∀ f ∈ s.self.flows, P f := by
  induction run with
  | start => exact List.forall_mem_nil _
  | world _ _ ih => exact ih
  | @act s t run operation performed ih =>
    intro f mem
    obtain ⟨-, keyed, sent⟩ := run.flows_independent performed
    have stays (unchanged : Unchanged s t) : P f := ih f (unchanged.self_eq ▸ mem)
    cases about : operation.key? with
    | none =>
      cases operation with
      | send packet =>
        obtain ⟨valid, invalid⟩ := sent packet rfl
        refine stays (invalid (Bool.of_not_eq_true fun routed => ?_))
        obtain ⟨key, known⟩ := valid routed
        cases about.symm.trans known
      | ready | pull => cases about
      | sweep now =>
        obtain ⟨u, -, rfl⟩ := ensures_sweep_loses run.standing.isOpen _ _ performed
        exact ih f (List.mem_filter.1 mem).1
      | clear =>
        have empty : Ensures (clear : Act FlowTable σ Unit) s fun _ t => t.self.flows = [] := by
          simp only [clear, ensures_bind, ensures_self, ensures_modifySelf]
          exact fun _ _ _ _ _ _ => trivial
        rw [empty _ _ performed] at mem
        cases mem
    | some key =>
      obtain ⟨frames, serves⟩ := keyed key about
      by_cases own : f.key = key
      · cases serves with
        | acted old _ ran takes =>
          obtain ⟨-, rfl⟩ := (takes.flow_iff f).1 ⟨mem, own⟩
          exact acts (run.standing.consistent _ old) (ih _ old) _ _ ran
        | opened _ asked started _ ran takes =>
          obtain ⟨-, rfl⟩ := (takes.flow_iff f).1 ⟨mem, own⟩
          subst asked
          exact opens about started _ _ ran
        | refused _ _ _ unchanged => exact stays unchanged
        | missing _ _ unchanged => exact stays unchanged
      · exact ih f (mem_of_perm_filter frames.others.symm mem own)

theorem ofPacket_of_keyOf? {packet : Packet} (known : keyOf? packet = some key) :
    FlowKey.ofPacket packet = .ok (some key) := by
  unfold keyOf? at known
  split at known
  · next routed => rw [routed, known]
  · cases known

theorem Run.introduced (run : Run s) : ∀ f ∈ s.self.flows, f.Introduced := by
  refine run.forall_flows Flow.introduced_of_act ?_
  intro packet key s u f known started
  have fits := Flow.protocol_of_start started
  obtain ⟨calls, opens⟩ := Flow.ensures_start _ _ started
  obtain ⟨key_eq, -, -, -, consistent⟩ := opens.fresh rfl
  have kept : Ensures (Flow.receive packet) { u with self := f } fun _ t =>
      t.self.key = key → t.self.Introduced := by
    apply Flow.ensures_byProtocol
    · rintro ⟨g, _, _, _⟩ same
      cases same
      obtain ⟨-, protocol, initial, registered⟩ := fits
      have tcp := Packet.segment_ne_none (ofPacket_of_keyOf? known) protocol
      refine (TcpFlow.underway_of_receive initial registered tcp).mono ?_
      exact fun _ _ underway own => ⟨(congrArg FlowKey.protocol own).trans protocol, underway⟩
    · rintro ⟨g, _, _, _⟩ same _ t - own
      cases same
      exact (congrArg FlowKey.protocol own).trans fits.2
  intro _ t received
  obtain ⟨_, visit⟩ := Flow.visits_receive consistent _ _ received
  exact kept _ t received (visit.key_eq.trans key_eq)

/-- The flow of a key is gone, and nothing was said to the device. -/
structure Silences (key : FlowKey) (s t : Scene FlowTable σ) : Prop where
  gone : ∀ f ∈ t.self.flows, f.key ≠ key
  silent : t.host.offers = s.host.offers

omit [Outlet σ] in
theorem Takes.silences_iff {u : Scene Flow σ} (takes : Takes key u t) (key_eq : u.self.key = key) :
    Silences key s t ↔ u.self.isClosed = true ∧ u.host.offers = s.host.offers := by
  have offers_eq : t.host.offers = u.host.offers := by
    refine takes.adds.offers_eq_iff.2 ?_
    split <;> rfl
  rw [← offers_eq]
  constructor
  · rintro ⟨gone, silent⟩
    refine ⟨Bool.of_not_eq_false fun isOpen => ?_, silent⟩
    exact gone _ ((takes.flow_iff u.self).2 ⟨isOpen, rfl⟩).1 key_eq
  · rintro ⟨closed, silent⟩
    refine ⟨fun f mem own => ?_, silent⟩
    cases closed.symm.trans ((takes.flow_iff f).1 ⟨mem, own⟩).1

/-- A flow that cannot be opened leaves the device without an answer. -/
theorem ensures_send_of_refused {packet : Packet} {failure : Failure} {u : Scene FlowTable σ}
    (known : keyOf? packet = some key) (absent : ∀ f ∈ s.self.flows, f.key ≠ key)
    (started : Flow.start s.self.session key packet s.self.config s = .ok (.error failure, u)) :
    Ensures (send packet) s fun _ t => t.host.offers = s.host.offers := by
  simp only [send, ensures_bind, ensures_self, ensures_liftM, ofPacket_of_keyOf? known]
  rintro _ ⟨⟩
  dsimp only
  split
  · next i hi =>
    obtain ⟨f, hf, own⟩ := find?_eq_some hi
    exact absurd own (absent f (List.mem_of_getElem? hf))
  rw [ensures_bind]
  intro result t started'
  cases started.symm.trans started'
  have silent : u.host.offers = s.host.offers := Flow.ensures_start_silently _ _ started
  exact (ensures_note _).2 silent

omit [Outlet σ] in
private theorem achieves_onFlow_of_acts {i : Nat} {f : Flow} {act : Act Flow σ Unit}
    (hf : s.self.flows[i]? = some f)
    (acts : Achieves act { s with self := f } fun _ _ => True) :
    Achieves (onFlow i act) s fun _ _ => True := by
  simp only [onFlow, achieves_bind, achieves_self, hf, achieves_runOn, achieves_modifySelf,
    removeIfClosed]
  refine acts.mono fun _ u _ => ?_
  split
  · exact (achieves_pure _).2 trivial
  · split
    · simp only [achieves_bind, achieves_modifySelf, achieves_note, achieves_tell]
    · exact (achieves_pure _).2 trivial

/-- A reset of the device is final and remains unanswered if its flow is there and the packet does not
ask for a connection, or if no flow is there and none can be opened. In all other cases the flow stays,
or the device is answered. A flow that is reset does not fault. -/
theorem Run.reset_silences_iff (run : Run s) {bytes : Bytes} {packet : Packet} {segment : Segment}
    (parsed : Packet.ofBytes bytes = .ok packet)
    (read : Segment.ofPacket packet = .ok (some segment)) (rst : segment.flags.has .rst = true) :
    ∃ key, keyOf? packet = some key ∧
      (∀ t, (Operation.send packet).perform s = .ok ((), t) →
        (Silences key s t ↔
          (∃ f ∈ s.self.flows, f.key = key) ∧ segment.flags.has .syn = false ∨
          (∀ f ∈ s.self.flows, f.key ≠ key) ∧ ∃ failure u,
            Flow.start s.self.session key packet s.self.config s = .ok (.error failure, u))) ∧
      ((∃ f ∈ s.self.flows, f.key = key) → segment.flags.has .syn = false →
        ∃ t, (Operation.send packet).perform s = .ok ((), t)) := by
  obtain ⟨key, routed, protocol⟩ := (Packet.judged_of_ofBytes parsed).key_of_segment read
  have known : keyOf? packet = some key := by rw [keyOf?, routed]
  have tcp {f : Flow} (mem : f ∈ s.self.flows) (own : f.key = key) :
      ∃ g : TcpFlow, f = .tcp g ∧ g.Underway := by
    have introduced := run.introduced f mem
    cases f with
    | udp g => cases (introduced : g.key.protocol = .udp).symm.trans ((congrArg _ own).trans protocol)
    | tcp g => exact ⟨g, rfl, introduced.2⟩
  refine ⟨key, known, fun t performed => ?_, fun there not_syn => ?_⟩
  · obtain ⟨-, serves⟩ := (run.flows_independent performed).2.1 key known
    cases serves with
    | @acted f u mem own ran takes =>
      obtain ⟨g, rfl, underway⟩ := tcp mem own
      have there : ∃ f ∈ s.self.flows, f.key = key := ⟨_, mem, own⟩
      have absent : ¬∀ f ∈ s.self.flows, f.key ≠ key := fun absent => absent _ mem own
      obtain ⟨_, visit⟩ := Flow.visits_receive (run.standing.consistent _ mem) _ _ ran
      have ended := Flow.ensures_receive_of_rst rfl underway.registered (run.standing.isOpen _ mem)
        read rst _ _ ran
      rw [takes.silences_iff (visit.key_eq.trans own)]
      simpa [there, absent, underway.asked] using ended
    | @opened _ f u v absent asked started own ran takes =>
      cases asked
      have there : ¬∃ f ∈ s.self.flows, f.key = key := by simpa using absent
      obtain ⟨calls, opens⟩ := Flow.ensures_start _ _ started
      obtain ⟨-, -, -, isOpen, consistent⟩ := opens.fresh rfl
      have fits := Flow.protocol_of_start started
      obtain ⟨_, visit⟩ := Flow.visits_receive consistent _ _ ran
      rw [takes.silences_iff (visit.key_eq.trans own)]
      cases f with
      | udp g => cases fits.2.symm.trans protocol
      | tcp g =>
        obtain ⟨-, -, initial, registered⟩ := fits
        have silent : u.host.offers = s.host.offers := Flow.ensures_start_silently _ _ started
        have ended := Flow.ensures_receive_of_rst rfl registered isOpen read rst _ _ ran
        simpa [there, started, initial, silent] using ended
    | @refused _ failure u absent asked started unchanged =>
      cases asked
      have silent := ensures_send_of_refused known absent started _ _ performed
      refine iff_of_true ⟨?_, silent⟩ (.inr ⟨absent, failure, u, started⟩)
      exact unchanged.self_eq ▸ absent
    | missing _ other _ => exact absurd rfl (other packet)
  · obtain ⟨f, mem, own⟩ := there
    have acts {g : Flow} (mem : g ∈ s.self.flows) (own : g.key = key) :
        Achieves (Flow.receive packet) { s with self := g } fun _ _ => True := by
      obtain ⟨g, rfl, underway⟩ := tcp mem own
      simp only [Flow.receive, Flow.byProtocol, achieves_bind, achieves_self, achieves_on]
      refine (TcpFlow.achieves_receive_of_reset underway.asked ?_ read rst not_syn).mono ?_
      · simpa [Flow.isClosed, TcpFlow.isClosed] using run.standing.isOpen _ mem
      · exact fun _ _ _ => trivial
    have sent : Achieves (send packet) s fun _ _ => True := by
      simp only [send, achieves_bind, achieves_self, achieves_liftM]
      refine ⟨some key, routed, ?_⟩
      dsimp only
      split
      · next i hi =>
        obtain ⟨g, hg, own'⟩ := find?_eq_some hi
        exact achieves_onFlow_of_acts hg (acts (List.mem_of_getElem? hg) own')
      · next found => exact absurd own (find?_eq_none found f mem)
    obtain ⟨_, t, performed, -⟩ := sent
    exact ⟨t, performed⟩

/-- A packet of the device that ends its flow. -/
def abort : Packet where
  bytes := TcpFlow.devicePacket .rst 0x111 0 []
  transport := some (.tcp, 20)

/-- The same with the flag that asks for a connection. -/
def abortOfRequest : Packet where
  bytes := TcpFlow.devicePacket (.syn ∪ .rst) 0x110 0 []
  transport := some (.tcp, 20)

private def aborted : FlowKey := ⟨.tcp, ⟨0x0a000002, 0xa028⟩, ⟨0x5db8d822, 80⟩⟩

/-- The device gives up before the host has connected. -/
theorem reset_silences_abort : ∃ (s t : Scene FlowTable Credit) (key : FlowKey), Run s ∧
    (∃ f ∈ s.self.flows, f.key = key) ∧ (Operation.send abort).perform s = .ok ((), t) ∧
      Silences key s t := by
  obtain ⟨s, t, run, performed, result⟩ := exists_run_of_enacts rfl
    (p := fun s _ => s.flows.map Flow.key == [aborted])
    (show enacts {} [.ofDevice (TcpFlow.devicePacket .syn 0x110 0 [])] (.send abort) _ = true by
      decide +kernel)
  have there : ∃ f ∈ s.self.flows, f.key = aborted := by
    rw [← List.mem_map, eq_of_beq result]
    exact List.mem_singleton_self _
  have parsed : Packet.ofBytes abort.bytes = .ok abort := by rfl
  have read : Segment.ofPacket abort = .ok (some ⟨.rst, 0x111, 0, 0x1000, []⟩) := by rfl
  obtain ⟨key, known, silences, -⟩ := run.reset_silences_iff parsed read (by decide)
  have same : keyOf? abort = some aborted := by decide +kernel
  cases known.symm.trans same
  exact ⟨s, t, aborted, run, there, performed,
    (silences t performed).2 (.inl ⟨there, by decide⟩)⟩

/-- A reset that asks for a connection as well is taken for a request while the host connects: the flow
stays, as if the device had never reset it. -/
theorem not_reset_silences : ¬∀ (s t : Scene FlowTable Credit) (bytes : Bytes) (packet : Packet)
    (segment : Segment) (key : FlowKey), Run s → Packet.ofBytes bytes = .ok packet →
    Segment.ofPacket packet = .ok (some segment) → segment.flags.has .rst = true →
    keyOf? packet = some key → (Operation.send packet).perform s = .ok ((), t) →
    Silences key s t := by
  intro silences
  obtain ⟨s, t, run, performed, result⟩ := exists_run_of_enacts rfl
    (p := fun _ t => t.flows.map Flow.key == [aborted])
    (show enacts {} [.ofDevice (TcpFlow.devicePacket .syn 0x110 0 [])] (.send abortOfRequest) _ =
        true by
      decide +kernel)
  have known : keyOf? abortOfRequest = some aborted := by decide +kernel
  have gone := (silences s t abortOfRequest.bytes abortOfRequest
    ⟨.syn ∪ .rst, 0x110, 0, 0x1000, []⟩ aborted run (by rfl) (by rfl) (by decide) known performed).gone
  have stays : aborted ∈ t.self.flows.map Flow.key := by
    rw [eq_of_beq result]
    exact List.mem_singleton_self _
  obtain ⟨f, mem, own⟩ := List.mem_map.1 stays
  exact gone f mem own

end FlowTable

end TunnelRelay
