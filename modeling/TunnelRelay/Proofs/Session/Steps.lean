import TunnelRelay.Proofs.Session.Moves

/-!
# What a move of a session keeps

The parts of a session fit together after every move, and what the session holds is exchanged for what
it holds then. A session that ends gives its flows up and sends nothing more.
-/

namespace TunnelRelay

open Act

def Event.taken? (socket : SocketId) : Event → Option Bytes
  | write other _ (.ok bytes) => if other = socket then some bytes else none
  | _ => none

theorem Event.taken?_of_spares {e : Event} {socket : SocketId} (h : e.Spares socket) :
    e.taken? socket = none := by
  unfold taken?
  split
  · next other _ bytes =>
    refine if_neg ?_
    rintro rfl
    exact h rfl
  · rfl

namespace Session

/-- The parts of a session fit together. -/
structure Coherent (s : Scene Session Unit) : Prop where
  opened : s.self.socket < s.host.nextSocket
  numbered : s.self.table.session = s.self.id
  sound : FlowTable.Sound s.self.socket s.self.outbox.waiting s.self.table.flows
  nodup : s.self.outbox.waiting.Nodup
  capacity : maxPacketLength ≤ s.self.outbox.ring.capacity
  ring : s.self.outbox.ring.Sound
  framing : s.self.framing.Sound
  suits : ∀ f ∈ s.self.table.flows, f.Suits

variable {s t u : Scene Session Unit}

theorem Coherent.world (h : Coherent s) (registry : Registry) {host : Host}
    (later : s.host.nextSocket ≤ host.nextSocket) : Coherent { s with registry, host } :=
  ⟨Nat.lt_of_lt_of_le h.opened later, h.numbered, h.sound, h.nodup, h.capacity, h.ring, h.framing,
    h.suits⟩

/-- The sockets of a session, which has an entry as long as it is open. -/
def holdings (s : Session) : List Holding :=
  ⟨s.socket, if s.closed then none else some (s.registration.token, .session s.id)⟩ ::
    FlowTable.holdings s.id s.table.flows

theorem holdings_of_open {session : Session} (isOpen : session.closed = false) :
    session.holdings = [⟨session.socket, some (session.registration.token, .session session.id)⟩] ++
      FlowTable.holdings session.id session.table.flows := by
  rw [holdings, isOpen]
  rfl

section

variable {β : Type} {Q : β → Scene Session Unit → Prop} {R : Unit → Scene Session Unit → Prop}

@[simp]
theorem ensures_say (notice : SessionNotice) :
    Ensures (say notice) s R ↔
      R () { s with host := s.host.record (.notice (.session s.self.id notice)) } := by
  simp [say]

@[simp]
theorem ensures_withTable {act : Act FlowTable Outbox β} :
    Ensures (withTable act) s Q ↔ Ensures act ⟨s.self.table, s.registry, s.self.outbox, s.host⟩
      fun b t => Q b ⟨{ s.self with table := t.self, outbox := t.out }, t.registry, (), t.host⟩ := by
  constructor
  · intro h b t hb
    apply h
    simp [withTable, hb, bind, Except.bind, pure, Except.pure]
  · intro h b t hb
    simp only [withTable, bind, Except.bind, pure, Except.pure] at hb
    split at hb
    · cases hb
    · next r hr =>
      cases hb
      exact h r.1 r.2 hr

end

namespace Task

variable {task : Task} {calls : List Event} {v : Scene FlowTable Outbox}

theorem ensures_perform (coherent : Coherent s) (due : task.Due s.self) :
    Ensures task.perform ⟨s.self.table, s.registry, (task.takenFrom s.self).outbox, s.host⟩
      fun _ v => ∃ calls, FlowTable.Served s.self.socket task.key?
        ⟨s.self.table, s.registry, (task.takenFrom s.self).outbox, s.host⟩ calls v := by
  cases due with
  | send _ parsed => exact FlowTable.ensures_send coherent.sound coherent.opened parsed
  | ready _ key readiness => exact FlowTable.ensures_onReady coherent.sound
  | pull _ waits _ =>
    have sound := coherent.sound
    rw [waits] at sound
    refine FlowTable.ensures_pull ?_
    simpa [takenFrom, waits] using sound
  | sweep _ now => exact (FlowTable.ensures_sweep coherent.sound).mono fun _ _ served => served.1

theorem served (coherent : Coherent s) (due : task.Due s.self)
    (ran : task.perform ⟨s.self.table, s.registry, (task.takenFrom s.self).outbox, s.host⟩ =
      .ok ((), v)) (adds : s.host.Adds calls v.host) :
    FlowTable.Served s.self.socket task.key?
      ⟨s.self.table, s.registry, (task.takenFrom s.self).outbox, s.host⟩ calls v := by
  obtain ⟨calls', served⟩ := ensures_perform coherent due _ _ ran
  exact adds.unique served.adds ▸ served

/-- Taking a task leaves the rest of the session as it was. -/
structure Takes (s s' : Session) : Prop where
  id_eq : s'.id = s.id
  socket_eq : s'.socket = s.socket
  registration_eq : s'.registration = s.registration
  table_eq : s'.table = s.table
  ring_eq : s'.outbox.ring = s.outbox.ring
  closed_eq : s'.closed = s.closed
  nodup : s.outbox.waiting.Nodup → s'.outbox.waiting.Nodup
  framing : s.framing.Sound → s'.framing.Sound

theorem takes (due : task.Due s.self) : Takes s.self (task.takenFrom s.self) := by
  cases due with
  | ready | sweep =>
    exact ⟨rfl, rfl, rfl, rfl, rfl, rfl, fun nodup => nodup, fun sound => sound⟩
  | pull =>
    exact ⟨rfl, rfl, rfl, rfl, rfl, rfl, fun nodup => nodup.sublist (List.tail_sublist _),
      fun sound => sound⟩
  | send seen _ =>
    refine ⟨rfl, rfl, rfl, rfl, rfl, rfl, fun nodup => nodup, fun sound => (sound.drop ?_).1⟩
    exact (whole_of_prospect seen).2

end Task

/-- What comes of ending a session. -/
structure Closes (s : Scene Session Unit) (calls : List Event) (t : Scene Session Unit) : Prop where
  self_eq : ∃ registration : Registration, registration.token = s.self.registration.token ∧
    t.self = { s.self with
      closed := true
      registration
      table := { s.self.table with flows := [] }
      outbox := { s.self.outbox with waiting := [] } }
  adds : s.host.Adds calls t.host
  mute : ∀ e ∈ calls, e.taken? s.self.socket = none
  silent : Event.posted calls = []
  exchange : Exchange s.registry s.host s.self.holdings t.registry t.host t.self.holdings

private theorem closes_of_clear {registration : Registration} {host : Host} {first calls : List Event}
    {v : Scene FlowTable Outbox} (isOpen : s.self.closed = false)
    (token : registration.token = s.self.registration.token) (called : s.host.After first host)
    (own : Event.KeepTo first s.self.socket (some s.self.registration.token))
    (quiet : ∀ e ∈ first, e.taken? s.self.socket = none) (posted : Event.posted first = [])
    (shed : FlowTable.Sheds s.self.socket
      ⟨s.self.table, s.registry.erase s.self.registration.token, s.self.outbox, host⟩
      (FlowTable.holdings s.self.id s.self.table.flows) calls v []) (notice : Notice) :
    Closes s (first ++ calls) ⟨{ s.self with
      closed := true
      registration
      table := { v.self with flows := [] }
      outbox := { v.out with waiting := [] } }, v.registry, (), v.host.record (.notice notice)⟩ where
  self_eq := ⟨registration, token, by rw [shed.self_eq, shed.out_eq]⟩
  adds := called.adds.trans (shed.adds.note notice)
  mute := List.forall_mem_append.2
    ⟨quiet, fun e mem => Event.taken?_of_spares (shed.spares e mem)⟩
  silent := by rw [Event.posted_append, posted, shed.silent, List.append_nil]
  exchange := by
    rw [holdings_of_open isOpen]
    have cancelled : Exchange s.registry s.host
        [⟨s.self.socket, some (s.self.registration.token, .session s.self.id)⟩]
        (s.registry.erase s.self.registration.token) host [⟨s.self.socket, none⟩] :=
      (Exchange.of_keepTo called.adds own).trans (.erase _ _ _ _ _)
    -- The session's own entry goes first, then those of the flows with their sockets.
    have cleared := (shed.exchange.frame [⟨s.self.socket, none⟩]).perm_left List.perm_append_comm
    exact ((cancelled.frame _).trans cleared).trans (.note _ _ _ notice)

theorem ensures_close (coherent : Coherent s) (isOpen : s.self.closed = false) :
    Ensures close s fun _ t => ∃ calls, Closes s calls t := by
  simp only [close, ensures_bind, ensures_self]
  rw [if_neg (by simp [isOpen])]
  simp only [ensures_bind, ensures_modifySelf]
  have apart : ∀ f ∈ s.self.table.flows, f.socket ≠ s.self.socket := fun f mem =>
    (coherent.sound.live f mem).socket_ne
  apply Registration.ensures_cancel
  · intro host unknown called
    simp only [ensures_withTable, ensures_say]
    refine (FlowTable.ensures_clear s.self.id apart).mono ?_
    rintro _ _ ⟨calls, v, shed, rfl⟩
    refine ⟨_, closes_of_clear isOpen rfl called (Event.keepTo_nil _ _) ?_ rfl shed _⟩
    exact List.forall_mem_nil _
  · intro outcome host known called
    simp only [ensures_withTable, ensures_say]
    refine (FlowTable.ensures_clear s.self.id apart).mono ?_
    rintro _ _ ⟨calls, v, shed, rfl⟩
    refine ⟨_, closes_of_clear isOpen ?_ called (Event.keepTo_singleton rfl rfl rfl) ?_ rfl shed _⟩
    · cases outcome <;> rfl
    · simp [Event.taken?]

theorem closes_of_close {calls : List Event} (coherent : Coherent s) (isOpen : s.self.closed = false)
    (ran : close s = .ok ((), t)) (adds : s.host.Adds calls t.host) : Closes s calls t := by
  obtain ⟨calls', closes⟩ := ensures_close coherent isOpen _ _ ran
  exact adds.unique closes.adds ▸ closes

/-- What a session is and stays: its number, its socket, its entry in the table and how it was set
up. -/
structure Same (s t : Session) : Prop where
  id_eq : t.id = s.id
  socket_eq : t.socket = s.socket
  token_eq : t.registration.token = s.registration.token
  config_eq : t.table.config = s.table.config

theorem Same.refl (s : Session) : Same s s := ⟨rfl, rfl, rfl, rfl⟩

theorem Same.trans {s t u : Session} (h : Same s t) (h' : Same t u) : Same s u :=
  ⟨h'.id_eq.trans h.id_eq, h'.socket_eq.trans h.socket_eq, h'.token_eq.trans h.token_eq,
    h'.config_eq.trans h.config_eq⟩

theorem same_received (s : Session) (result : Except ErrorKind Bytes) :
    Same s (s.received result) := by
  unfold received
  split <;> exact ⟨rfl, rfl, rfl, rfl⟩

theorem same_relieved (s : Session) (result : Except ErrorKind Bytes) :
    Same s (s.relieved result) := by
  unfold relieved
  split <;> exact ⟨rfl, rfl, rfl, rfl⟩

theorem holdings_received (s : Session) (result : Except ErrorKind Bytes) :
    (s.received result).holdings = s.holdings := by
  unfold received
  split <;> rfl

theorem holdings_relieved (s : Session) (result : Except ErrorKind Bytes) :
    (s.relieved result).holdings = s.holdings := by
  unfold relieved
  split <;> rfl

theorem after_read {size : Nat} {result : Except ErrorKind Bytes} {host : Host}
    (answer : s.host.read s.self.socket size = (result, host)) :
    s.host.After [.read s.self.socket size result] host := by
  have called := (Host.After.refl s.host).read s.self.socket size
  rw [answer] at called
  exact called

theorem after_write {front : Bytes} {result : Except ErrorKind Bytes} {host : Host}
    (answer : s.host.write s.self.socket front = (result, host)) :
    s.host.After [.write s.self.socket front.length result] host := by
  have called := (Host.After.refl s.host).write s.self.socket front
  rw [answer] at called
  exact called

namespace Move

variable {deed : Deed}

theorem isOpen (h : Move s deed t) : s.self.closed = false := by
  cases h <;> assumption

theorem of_closed (h : Move s deed t) (closed : t.self.closed = true) :
    ∃ cause calls, deed = .closed cause calls := by
  cases h with
  | closed => exact ⟨_, _, rfl⟩
  | read isOpen | wrote isOpen | told isOpen => simp [isOpen] at closed
  | served isOpen due => simp [(Task.takes due).closed_eq, isOpen] at closed

/-- The calls of a move are all that is called meanwhile. -/
theorem adds (h : Move s deed t) : s.host.Adds (deed.calls s.self.socket) t.host := by
  cases h with
  | read _ _ _ answer => exact (after_read answer).adds
  | wrote _ _ _ _ answer => exact (after_write answer).adds
  | told _ _ _ called => exact called.adds
  | served _ _ _ adds | closed _ _ _ adds => exact adds

theorem same (coherent : Coherent s) (h : Move s deed t) : Same s.self t.self := by
  cases h with
  | read => exact same_received _ _
  | wrote => exact same_relieved _ _
  | @told _ _ _ outcome => exact ⟨rfl, rfl, by cases outcome <;> rfl, rfl⟩
  | served _ due ran adds =>
    have takes := Task.takes due
    exact ⟨takes.id_eq, takes.socket_eq, congrArg Registration.token takes.registration_eq,
      (Task.served coherent due ran adds).config_eq⟩
  | closed isOpen _ ran adds =>
    obtain ⟨registration, token, same⟩ := (closes_of_close coherent isOpen ran adds).self_eq
    rw [same]
    exact ⟨rfl, rfl, token, rfl⟩

private theorem coherent_received (coherent : Coherent s) {size : Nat} {result : Except ErrorKind Bytes}
    {host : Host} (room : s.self.framing.room = .ok size)
    (answer : s.host.read s.self.socket size = (result, host))
    (later : s.host.nextSocket ≤ host.nextSocket) :
    Coherent { s with self := s.self.received result, host } := by
  obtain ⟨fits, -⟩ := coherent.framing.of_room room
  unfold received
  split
  · next b bytes =>
    have read : (s.host.read s.self.socket size).1 = .ok (b :: bytes) := by rw [answer]
    have short := Host.length_read_le read
    have enough : s.self.framing.held.length + (b :: bytes).length ≤ maxPacketLength := by omega
    obtain ⟨framing, -⟩ := coherent.framing.append enough
    exact { coherent.world s.registry later with framing }
  · exact coherent.world s.registry later

private theorem coherent_relieved (coherent : Coherent s) (result : Except ErrorKind Bytes) {host : Host}
    (later : s.host.nextSocket ≤ host.nextSocket) :
    Coherent { s with self := s.self.relieved result, host } := by
  unfold relieved
  split
  · exact { coherent.world s.registry later with ring := coherent.ring.drop }
  · exact coherent.world s.registry later

private theorem coherent_served (coherent : Coherent s) {task : Task} (due : task.Due s.self)
    {v : Scene FlowTable Outbox} {calls : List Event}
    (served : FlowTable.Served s.self.socket task.key?
      ⟨s.self.table, s.registry, (task.takenFrom s.self).outbox, s.host⟩ calls v) :
    Coherent ⟨{ task.takenFrom s.self with table := v.self, outbox := v.out }, v.registry, (),
      v.host⟩ := by
  have takes := Task.takes due
  refine ⟨?_, ?_, ?_, served.grows.nodup (takes.nodup coherent.nodup), ?_, ?_,
    takes.framing coherent.framing, served.suits coherent.suits⟩
  · change (task.takenFrom s.self).socket < _
    rw [takes.socket_eq]
    exact Nat.lt_of_lt_of_le coherent.opened served.adds.nextSocket_le
  · change v.self.session = (task.takenFrom s.self).id
    rw [takes.id_eq, served.session_eq]
    exact coherent.numbered
  · change FlowTable.Sound (task.takenFrom s.self).socket _ _
    rw [takes.socket_eq]
    exact served.sound
  · rw [served.grows.capacity_eq, takes.ring_eq]
    exact coherent.capacity
  · refine served.grows.sound ?_
    rw [takes.ring_eq]
    exact coherent.ring

theorem coherent (coherent : Coherent s) (h : Move s deed t) : Coherent t := by
  have later := h.adds.nextSocket_le
  cases h with
  | read _ _ room answer => exact coherent_received coherent room answer later
  | wrote => exact coherent_relieved coherent _ later
  | told => exact { coherent.world s.registry later with }
  | served _ due ran adds => exact coherent_served coherent due (Task.served coherent due ran adds)
  | closed isOpen _ ran adds =>
    obtain ⟨registration, -, same⟩ := (closes_of_close coherent isOpen ran adds).self_eq
    have none : FlowTable.Sound s.self.socket [] [] :=
      ⟨List.nodup_nil, List.forall_mem_nil _, List.forall_mem_nil _⟩
    obtain ⟨_, registry, ⟨⟩, host⟩ := t
    subst same
    exact ⟨Nat.lt_of_lt_of_le coherent.opened later, coherent.numbered, none, List.nodup_nil,
      coherent.capacity, coherent.ring, coherent.framing, List.forall_mem_nil _⟩

/-- A move of a session concerns nothing but what the session holds. -/
theorem exchange (coherent : Coherent s) (h : Move s deed t) :
    Exchange s.registry s.host s.self.holdings t.registry t.host t.self.holdings := by
  have isOpen := h.isOpen
  have kept {session : Session} {host : Host} {e : Event} (held : session.holdings = s.self.holdings)
      (called : s.host.After [e] host)
      (own : Event.KeepTo [e] s.self.socket (some s.self.registration.token)) :
      Exchange s.registry s.host s.self.holdings s.registry host session.holdings := by
    rw [held, holdings_of_open isOpen]
    exact (Exchange.of_keepTo called.adds own).frame _
  cases h with
  | read _ _ _ answer =>
    exact kept (holdings_received _ _) (after_read answer) (Event.keepTo_singleton rfl rfl rfl)
  | wrote _ _ _ _ answer =>
    exact kept (holdings_relieved _ _) (after_write answer) (Event.keepTo_singleton rfl rfl rfl)
  | @told _ _ _ outcome _ called =>
    refine kept ?_ called (Registration.keepTo_pollerCall _ _)
    cases outcome <;> rfl
  | @served isOpen task due v ran _ adds =>
    have takes := Task.takes due
    have flows : Exchange s.registry s.host (FlowTable.holdings s.self.id s.self.table.flows)
        v.registry v.host (FlowTable.holdings s.self.id v.self.flows) := by
      rw [← coherent.numbered]
      exact (Task.served coherent due ran adds).exchange
    have own := flows.frame [⟨s.self.socket, some (s.self.registration.token, .session s.self.id)⟩]
    have stillOpen : Session.closed { task.takenFrom s.self with table := v.self, outbox := v.out } =
        false := takes.closed_eq.trans isOpen
    have after : Session.holdings { task.takenFrom s.self with table := v.self, outbox := v.out } =
        [⟨s.self.socket, some (s.self.registration.token, .session s.self.id)⟩] ++
          FlowTable.holdings s.self.id v.self.flows := by
      rw [holdings_of_open stillOpen, takes.socket_eq, takes.registration_eq, takes.id_eq]
    rw [holdings_of_open isOpen, after]
    exact (own.perm_left List.perm_append_comm).perm_right List.perm_append_comm
  | closed isOpen _ ran adds => exact (closes_of_close coherent isOpen ran adds).exchange

end Move

def calls (socket : SocketId) (deeds : List Deed) : List Event := deeds.flatMap (Deed.calls socket)

@[simp]
theorem calls_append (socket : SocketId) (first second : List Deed) :
    calls socket (first ++ second) = calls socket first ++ calls socket second :=
  List.flatMap_append

namespace Path

variable {deeds : List Deed}

/-- What every move keeps, and whatever is noted in between, a path keeps. -/
theorem induct {I : List Deed → Scene Session Unit → Prop}
    (quiet : ∀ deeds s host, I deeds s → s.host.After [] host → I deeds { s with host })
    (move : ∀ deeds s deed t, I deeds s → Move s deed t → I (deeds ++ [deed]) t)
    (path : Path s deeds t) (before : List Deed) (h : I before s) : I (before ++ deeds) t := by
  induction path generalizing before with
  | quiet called =>
    rw [List.append_nil]
    exact quiet _ _ _ h called
  | move step => exact move _ _ _ _ h step
  | append _ _ ih ih' =>
    rw [← List.append_assoc]
    exact ih' _ (ih _ h)

/-- All that a path changes beside the session itself. -/
structure Leads (s : Scene Session Unit) (deeds : List Deed) (t : Scene Session Unit) : Prop where
  coherent : Coherent t
  same : Same s.self t.self
  adds : s.host.Adds (calls s.self.socket deeds) t.host
  exchange : Exchange s.registry s.host s.self.holdings t.registry t.host t.self.holdings

theorem leads (coherent : Coherent s) (path : Path s deeds t) : Leads s deeds t := by
  refine path.induct (I := Leads s) ?_ ?_ [] ⟨coherent, .refl _, .refl _, .refl _ _ _⟩
  · rintro deeds t host ⟨coherent, same, adds, exchange⟩ called
    refine ⟨coherent.world _ called.adds.nextSocket_le, same, ?_, ?_⟩
    · have later := adds.trans called.adds
      rwa [List.append_nil] at later
    · exact exchange.trans (.of_adds called.adds (List.forall_mem_nil _))
  · rintro deeds t deed u ⟨coherent, same, adds, exchange⟩ step
    refine ⟨step.coherent coherent, same.trans (step.same coherent), ?_,
      exchange.trans (step.exchange coherent)⟩
    have later := adds.trans step.adds
    rw [same.socket_eq] at later
    rw [calls_append]
    simpa [calls] using later

end Path

end Session

end TunnelRelay
