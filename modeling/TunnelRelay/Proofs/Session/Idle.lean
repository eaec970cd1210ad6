import TunnelRelay.Proofs.FlowTable.Idle
import TunnelRelay.Proofs.Session.Input

/-!
# The age of the flows of a session

Whatever a session does takes no time. A UDP flow of the session is in use meanwhile if a packet that
arrives on the tunnel has its key or if a datagram passes its socket, and only grows older otherwise.
-/

namespace TunnelRelay

open Act

/-- The key of the flow that a packet of the device is for. -/
def addressed? (packet : Bytes) : Option FlowKey :=
  (Packet.ofBytes packet).toOption.bind FlowTable.keyOf?

/-- The bytes that were read from a stream by the call. -/
def Event.arrived (socket : SocketId) : Event → Bytes
  | read other _ (.ok bytes) => if other = socket then bytes else []
  | _ => []

theorem Event.arrived_of_spares {e : Event} {socket : SocketId} (h : e.Spares socket) :
    e.arrived socket = [] := by
  unfold arrived
  split
  · exact if_neg fun same => h (congrArg some same)
  · rfl

theorem Registration.arrived_pollerCall {r : Registration} {socket other : SocketId}
    (wanted : Option Interest) (outcome : Outcome) :
    (r.pollerCall socket wanted outcome).arrived other = [] := by
  unfold pollerCall
  split <;> rfl

theorem Event.flatMap_arrived_eq_nil {calls : List Event} {socket : SocketId}
    (spares : ∀ e ∈ calls, e.Spares socket) : calls.flatMap (Event.arrived socket) = [] :=
  List.flatMap_eq_nil_iff.2 fun e mem => arrived_of_spares (spares e mem)

namespace Session

variable {s t u : Scene Session Unit} {deed : Deed} {first second deeds : List Deed} {task : Task}
  {others : List Holding}

/-- What a session asks of its flows, as an operation of their table. -/
def Task.operation : Task → FlowTable.Operation
  | send packet => .send packet
  | ready key readiness => .ready key readiness
  | pull key => .pull key
  | sweep now => .sweep now

theorem Task.perform_operation (task : Task) :
    (task.operation.perform : Act FlowTable Outbox Unit) = task.perform := by
  cases task <;> rfl

/-- A flow is asked to send by the packet that is routed. -/
theorem Task.sent?_iff (due : task.Due s.self) (calls : List Event) (key : FlowKey) :
    task.operation.sent? = some key ↔
      ∃ packet ∈ (Deed.served task calls).routed?, addressed? packet = some key := by
  cases due with
  | send _ parsed =>
    have bytes := Packet.bytes_of_ofBytes parsed
    rw [← bytes] at parsed
    simp [operation, FlowTable.Operation.sent?, Deed.routed?, addressed?, parsed, Except.toOption]
  | ready | pull | sweep => simp [operation, FlowTable.Operation.sent?, Deed.routed?]

theorem Coherent.standing (coherent : Coherent s)
    (kept : Kept s.registry s.host (s.self.holdings ++ others)) (out : Outbox) :
    FlowTable.Standing ⟨s.self.table, s.registry, out, s.host⟩ where
  distinct := coherent.sound.distinct
  isOpen f mem := (coherent.sound.live f mem).isOpen
  consistent f mem := (coherent.sound.live f mem).consistent
  kept := by
    obtain ⟨own, held⟩ : ∃ own : Holding,
        s.self.holdings = own :: FlowTable.holdings s.self.id s.self.table.flows := ⟨_, rfl⟩
    rw [held] at kept
    refine ⟨own :: others, ?_⟩
    rw [coherent.numbered]
    exact kept.perm List.perm_middle.symm

/-- What the moves of a session do to its UDP flows, and what they take in from the tunnel. -/
structure Ages (deeds : List Deed) (s t : Scene Session Unit) : Prop where
  config_eq : t.self.table.config = s.self.table.config
  bytes_eq : s.self.framing.held ++ (calls s.self.socket deeds).flatMap (Event.arrived s.self.socket) =
    (routed deeds).flatten ++ t.self.framing.held
  whole : ∀ packet ∈ routed deeds, Whole packet
  flows : ∀ g, .udp g ∈ t.self.table.flows →
    FlowTable.Ages (fun key => ∃ packet ∈ routed deeds, addressed? packet = some key) s.host.clock
      s.self.table.config.udpIdleTimeout (calls s.self.socket deeds) s.self.table.flows g

theorem Ages.trans (h : Ages first s t) (h' : Ages second t u) (same : Same s.self t.self)
    (clock : t.host.clock = s.host.clock) : Ages (first ++ second) s u := by
  obtain ⟨config', bytes', whole', flows'⟩ := h'
  rw [same.socket_eq] at bytes' flows'
  rw [clock, h.config_eq] at flows'
  have both : routed (first ++ second) = routed first ++ routed second := List.filterMap_append
  refine ⟨config'.trans h.config_eq, ?_, ?_, fun g mem => ?_⟩
  · rw [calls_append, List.flatMap_append, ← List.append_assoc, h.bytes_eq, both, List.flatten_append,
      List.append_assoc, bytes', List.append_assoc]
  · rw [both]
    exact List.forall_mem_append.2 ⟨h.whole, whole'⟩
  · rw [calls_append, both]
    refine (FlowTable.Ages.trans h.flows (flows' g mem)).congr ?_
    simp only [List.mem_append, or_and_right, exists_or]

theorem routed_singleton (deed : Deed) : routed [deed] = deed.routed?.toList := routed_concat [] deed

@[simp]
theorem calls_singleton (socket : SocketId) (deed : Deed) : calls socket [deed] = deed.calls socket :=
  List.flatMap_singleton _ _

theorem clock_close : Ensures close s fun _ t => t.host.clock = s.host.clock := by
  simp only [close, ensures_bind, ensures_self]
  split
  · exact (ensures_pure _).2 rfl
  simp only [ensures_bind, ensures_modifySelf]
  have cleared {registry : Registry} {host : Host}
      (same : host.clock = s.host.clock) : Ensures FlowTable.clear
        ⟨s.self.table, registry, s.self.outbox, host⟩ fun _ t => t.host.clock = s.host.clock :=
    FlowTable.clock_clear.mono fun _ _ clock => clock.trans same
  apply Registration.ensures_cancel
  · intro host _ called
    simp only [ensures_withTable, ensures_say]
    exact cleared called.clock_eq
  · intro outcome host _ called
    simp only [ensures_withTable, ensures_say]
    exact cleared called.clock_eq

namespace Move

private theorem ages_of_silent (coherent : Coherent s) (h : Move s deed t)
    (table : t.self.table = s.self.table) (none : deed.routed? = none)
    (arrived : (deed.calls s.self.socket).flatMap (Event.arrived s.self.socket) = deed.arrived)
    (silent : ∀ e ∈ deed.calls s.self.socket, ∀ socket, e.passes socket = false) :
    Ages [deed] s t := by
  have held := h.held coherent
  refine ⟨congrArg FlowTable.config table, ?_, ?_, fun g mem => ?_⟩
  · rw [calls_singleton, arrived, routed_singleton, held]
  · rw [routed_singleton, none]
    exact List.forall_mem_nil _
  · rw [table] at mem
    rw [calls_singleton, routed_singleton, none]
    exact .of_silent mem (by simp) fun e he => silent e he _

private theorem ages_served (coherent : Coherent s)
    (kept : Kept s.registry s.host (s.self.holdings ++ others)) {calls : List Event}
    (h : Move s (.served task calls) t) :
    t.host.clock = s.host.clock ∧ Ages [.served task calls] s t := by
  have held := h.held coherent
  have meets := h.meets coherent
  cases h with
  | @served _ _ due v ran _ adds =>
    have served := Task.served coherent due ran adds
    have standing := coherent.standing kept (task.takenFrom s.self).outbox
    rw [← Task.perform_operation] at ran
    refine ⟨FlowTable.clock_perform standing _ _ ran, served.config_eq, ?_, ?_, fun g mem => ?_⟩
    · have none := Event.flatMap_arrived_eq_nil served.spares
      rw [calls_singleton, Deed.calls, none, routed_singleton]
      exact held
    · rw [routed_singleton]
      intro packet routed
      cases task with
      | send p =>
        obtain rfl : packet = p.bytes := by simpa [Deed.routed?] using routed
        exact meets.2
      | ready | pull | sweep => cases routed
    · rw [calls_singleton, routed_singleton]
      refine (FlowTable.ages_perform standing ran adds mem).congr ?_
      simpa only [Option.mem_toList, Option.mem_def] using Task.sent?_iff due calls g.key

/-- One move takes no time, and a session that goes on has not changed the age of its flows but by what
passed. -/
theorem ages (coherent : Coherent s) (kept : Kept s.registry s.host (s.self.holdings ++ others))
    (h : Move s deed t) :
    t.host.clock = s.host.clock ∧ (t.self.closed = false → Ages [deed] s t) := by
  have silent {e : Event} (h : ∀ socket, e.passes socket = false) :
      ∀ e' ∈ [e], ∀ socket, e'.passes socket = false := List.forall_mem_singleton.2 h
  have step := h
  cases h with
  | @read _ _ size _ result _ answer =>
    refine ⟨(after_read answer).clock_eq, fun _ => step.ages_of_silent coherent ?_ rfl ?_ ?_⟩
    · unfold received
      split <;> rfl
    · cases result <;> simp [Deed.calls, Event.arrived, Deed.arrived]
    · exact silent fun _ => rfl
  | @wrote _ _ _ _ _ result _ answer =>
    refine ⟨(after_write answer).clock_eq, fun _ => step.ages_of_silent coherent ?_ rfl rfl ?_⟩
    · unfold relieved
      split <;> rfl
    · exact silent fun _ => rfl
  | told _ _ _ called =>
    refine ⟨called.clock_eq, fun _ => step.ages_of_silent coherent rfl rfl ?_ ?_⟩
    · rw [Deed.calls, List.flatMap_singleton, Registration.arrived_pollerCall]
      rfl
    · exact silent fun _ => Registration.passes_pollerCall _ _
  | served =>
    obtain ⟨clock, ages⟩ := step.ages_served coherent kept
    exact ⟨clock, fun _ => ages⟩
  | closed isOpen _ ran adds =>
    refine ⟨?_, fun goesOn => ?_⟩
    · exact clock_close _ _ ran
    · obtain ⟨_, -, same⟩ := (closes_of_close coherent isOpen ran adds).self_eq
      rw [same] at goesOn
      cases goesOn

end Move

namespace Path

theorem isOpen (path : Path s deeds t) (goesOn : t.self.closed = false) : s.self.closed = false := by
  induction path with
  | quiet _ => exact goesOn
  | move step => exact step.isOpen
  | append _ _ ih ih' => exact ih (ih' goesOn)

theorem ages (path : Path s deeds t) (coherent : Coherent s)
    (kept : Kept s.registry s.host (s.self.holdings ++ others)) :
    t.host.clock = s.host.clock ∧ (t.self.closed = false → Ages deeds s t) := by
  induction path with
  | quiet called =>
    refine ⟨called.clock_eq, fun _ => ⟨rfl, ?_, List.forall_mem_nil _, fun g mem => ?_⟩⟩
    · exact List.append_nil _
    · exact .of_silent mem (by simp [routed]) (List.forall_mem_nil _)
  | move step => exact step.ages coherent kept
  | append path path' ih ih' =>
    have leads := path.leads coherent
    obtain ⟨clock, ages⟩ := ih coherent kept
    obtain ⟨clock', ages'⟩ := ih' leads.coherent (leads.exchange _ kept).1
    refine ⟨clock'.trans clock, fun goesOn => ?_⟩
    exact (ages (path'.isOpen goesOn)).trans (ages' goesOn) leads.same clock

end Path

/-- What becomes of a session, at the time `now`, when these packets have arrived whole. -/
structure Serves (packets : List Bytes) (now : Nat) (calls : List Event) (s t : Session) : Prop where
  socket_eq : t.socket = s.socket
  config_eq : t.table.config = s.table.config
  splits : Splits (s.framing.held ++ calls.flatMap (Event.arrived s.socket)) packets t.framing.held
  flows : ∀ g, .udp g ∈ t.table.flows →
    FlowTable.Ages (fun key => ∃ packet ∈ packets, addressed? packet = some key) now
      s.table.config.udpIdleTimeout calls s.table.flows g

/-- A session on whose sockets nothing was called is as it was. -/
theorem serves_of_spares {session : Session} {now : Nat} {calls : List Event}
    (unfinished : ∀ n, Prospect.of session.framing.held ≠ .packet n)
    (spares : ∀ x ∈ session.holdings, ∀ e ∈ calls, e.Spares x.socket) :
    Serves [] now calls session session := by
  obtain ⟨own, held⟩ := List.forall_mem_cons.1 spares
  refine ⟨rfl, rfl, ?_, fun g mem => .of_spares mem (by simp) fun e he => ?_⟩
  · rw [Event.flatMap_arrived_eq_nil own, List.append_nil]
    exact .rest unfinished
  · exact held _ (List.mem_map_of_mem mem) e he

/-- An operation takes no time. A session that goes on has asked its flows to send the packets that
have arrived. -/
theorem Run.serves (run : Run s) (kept : Kept s.registry s.host (s.self.holdings ++ others))
    {operation : Operation} (performed : operation.perform s = .ok ((), t)) :
    t.host.clock = s.host.clock ∧ ∃ calls, s.host.Adds calls t.host ∧
      (t.self.closed = false → ∃ packets, Serves packets s.host.clock calls s.self t.self) := by
  obtain ⟨coherent, rests⟩ := run.coherent_rests
  have settles := Operation.settles coherent rests _ _ performed
  obtain ⟨deeds, path⟩ := settles.reached
  have leads := path.leads coherent
  obtain ⟨clock, ages⟩ := path.ages coherent kept
  refine ⟨clock, _, leads.adds, fun goesOn => ⟨routed deeds, ?_⟩⟩
  obtain ⟨config, bytes, whole, flows⟩ := ages goesOn
  have drained : t.self.framing.Drained := ((run.act performed).rests.resolve_left
    (by simp [goesOn])).intact.drained
  refine ⟨leads.same.socket_eq, config, ?_, flows⟩
  rw [bytes]
  exact .of_flatten whole drained.unfinished

end Session

end TunnelRelay
