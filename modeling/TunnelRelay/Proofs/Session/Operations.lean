import TunnelRelay.Proofs.Session.Steps

/-!
# Operations of a session

While a session handles an event its flows are served one after the other, and each of them that holds
a packet back waits in the outbox. At the end of the event the session comes to rest: no flow waits
while there is room for any packet, and what the outbox holds was refused by the tunnel, which the
poller is asked to watch.
-/

namespace TunnelRelay

open Act

theorem Host.After.last {h h' : Host} {e : Event} (hc : h.After [e] h') :
    h'.calls.head? = some e := by
  rw [hc.calls_eq]
  rfl

namespace Session

/-- What holds of an open session whenever its flows have had their turn. -/
structure Intact (s : Scene Session Unit) : Prop extends Coherent s where
  polled : s.host.polled s.self.socket = s.self.registration.interest
  drained : s.self.framing.Drained

/-- Nothing is left for the tunnel, or it has refused to take more. -/
def Flushed (s : Scene Session Unit) : Prop :=
  s.self.outbox.ring.isEmpty = true ∨
    s.host.lastWrite s.self.socket = some (.error .wouldBlock)

/-- No flow waits, or there is not enough room for every packet. -/
def Full (s : Scene Session Unit) : Prop :=
  s.self.outbox.waiting ≠ [] → s.self.outbox.ring.remaining < maxPacketLength

/-- What holds of an open session between events. -/
structure AtRest (s : Scene Session Unit) : Prop where
  intact : Intact s
  full : Full s
  flushed : Flushed s
  interest : s.self.registration.interest = some s.self.wanted

/-- A session that is open rests between events. -/
def Rests (s : Scene Session Unit) : Prop := s.self.closed = true ∨ AtRest s

variable {s t u : Scene Session Unit}

theorem Coherent.isEmpty_of_short (h : Coherent s)
    (short : s.self.outbox.ring.remaining < maxPacketLength) :
    s.self.outbox.ring.isEmpty = false :=
  StreamRing.isEmpty_of_remaining_lt (Nat.lt_of_lt_of_le short h.capacity)

theorem AtRest.interest_eq_both (h : AtRest s) (nonempty : s.self.outbox.ring.isEmpty = false) :
    s.self.registration.interest = some .both := by
  rw [h.interest, wanted, nonempty]
  rfl

def Reaches (s t : Scene Session Unit) : Prop := ∃ deeds, Path s deeds t

namespace Reaches

theorem refl (s : Scene Session Unit) : Reaches s s := ⟨[], .quiet (.refl _)⟩

theorem trans (h : Reaches s t) (h' : Reaches t u) : Reaches s u := by
  obtain ⟨first, path⟩ := h
  obtain ⟨second, path'⟩ := h'
  exact ⟨first ++ second, path.append path'⟩

theorem quiet {host : Host} (h : Reaches s t) (called : t.host.After [] host) :
    Reaches s { t with host } := h.trans ⟨[], .quiet called⟩

theorem note (h : Reaches s t) (notice : Notice) :
    Reaches s { t with host := t.host.record (.notice notice) } :=
  h.quiet ((Host.After.refl _).note notice)

theorem move {deed : Deed} (h : Reaches s t) (step : Move t deed u) : Reaches s u :=
  h.trans ⟨_, .move step⟩

theorem coherent (h : Reaches s t) (coherent : Coherent s) : Coherent t := by
  obtain ⟨_, path⟩ := h
  exact (path.leads coherent).coherent

end Reaches

/-- The session is open yet, and whatever can be routed has been. -/
structure Continues (s t : Scene Session Unit) : Prop where
  reached : Reaches s t
  isOpen : t.self.closed = false
  drained : t.self.framing.Drained

/-- The session has come to its end, or to rest. -/
structure Settles (s t : Scene Session Unit) : Prop where
  reached : Reaches s t
  settled : t.self.closed = true ∨
    t.self.framing.Drained ∧ Full t ∧ Flushed t ∧ t.self.registration.interest = some t.self.wanted

theorem Settles.of_closed (reached : Reaches s t) (closed : t.self.closed = true) : Settles s t :=
  ⟨reached, .inl closed⟩

variable {packets : List Bytes} {rest : Bytes}

theorem Reaches.ends {cause : Cause} (reached : Reaches s t) (coherent : Coherent s)
    (isOpen : t.self.closed = false) (fails : t.self.Fails t.host.calls cause) :
    Ensures close t fun _ u => Reaches s u ∧ u.self.closed = true := by
  intro _ u ran
  obtain ⟨calls, closes⟩ := ensures_close (reached.coherent coherent) isOpen _ _ ran
  refine ⟨reached.move (.closed isOpen fails ran closes.adds), ?_⟩
  obtain ⟨_, -, same⟩ := closes.self_eq
  rw [same]

theorem reaches_task {task : Task} {session : Session} (coherent : Coherent s)
    (isOpen : s.self.closed = false) (due : task.Due s.self)
    (taken : task.takenFrom s.self = session) :
    Ensures (withTable task.perform) { s with self := session } fun _ t =>
      Reaches s t ∧ t.self.framing = session.framing ∧ t.self.closed = false := by
  subst taken
  have takes := Task.takes due
  have same : (⟨(task.takenFrom s.self).table, s.registry, (task.takenFrom s.self).outbox, s.host⟩ :
      Scene FlowTable Outbox) = ⟨s.self.table, s.registry, (task.takenFrom s.self).outbox, s.host⟩ := by
    rw [takes.table_eq]
  rw [ensures_withTable]
  intro _ v ran
  rw [same] at ran
  obtain ⟨calls, served⟩ := Task.ensures_perform coherent due _ _ ran
  refine ⟨(Reaches.refl s).move (.served isOpen due ran served.adds), rfl, ?_⟩
  exact takes.closed_eq.trans isOpen

private theorem reaches_route {packet : Bytes} (coherent : Coherent s)
    (isOpen : s.self.closed = false) (whole : Whole packet)
    (held : s.self.framing.held = packet ++ rest) :
    Ensures (route packet) s fun _ t => Reaches s t ∧ t.self.closed = false ∧
      t.self.framing.held = rest := by
  simp only [route, ensures_bind, ensures_liftM, ensures_withTable, ensures_modifySelf]
  intro p parsed _ v ran
  have length : p.length = packet.length :=
    congrArg List.length (Packet.bytes_of_ofBytes parsed)
  have front : s.self.framing.held.take p.length = packet := by
    rw [held, length, List.take_left]
  have seen : Prospect.of s.self.framing.held = .packet p.length := by
    rw [held, length, whole.of_append]
  have due : (Task.send p).Due s.self := .send seen (front.symm ▸ parsed)
  obtain ⟨calls, served⟩ := Task.ensures_perform coherent due _ _ ran
  have reached := (Reaches.refl s).move (.served isOpen due ran served.adds)
  rw [Task.takenFrom, length] at reached
  refine ⟨reached, isOpen, ?_⟩
  have fits : packet.length ≤ s.self.framing.held.length := by simp [held]
  have held' := (coherent.framing.drop fits).2
  rwa [held, List.drop_left] at held'

theorem reaches_routeAll (coherent : Coherent s) (isOpen : s.self.closed = false)
    (splits : Splits s.self.framing.held packets rest) :
    Ensures (routeAll packets) s fun _ t => Reaches s t ∧ t.self.closed = false ∧
      t.self.framing.held = rest := by
  -- One move for each packet, in the order of the split.
  generalize same : s.self.framing.held = held at splits
  induction splits generalizing s with
  | rest _ => exact (ensures_pure _).2 ⟨.refl s, isOpen, same⟩
  | packet whole _ ih =>
    rw [routeAll, ensures_bind]
    refine (reaches_route coherent isOpen whole same).mono ?_
    rintro _ t ⟨reached, isOpen, held⟩
    refine (ih (reached.coherent coherent) isOpen held).mono ?_
    rintro _ u ⟨reached', done⟩
    exact ⟨reached.trans reached', done⟩

theorem reaches_routePackets (coherent : Coherent s) (isOpen : s.self.closed = false) :
    Ensures routePackets s fun result t => Reaches s t ∧ t.self.closed = false ∧
      (∀ n, Prospect.of t.self.framing.held ≠ .packet n) ∧
      result = (Prospect.of t.self.framing.held).verdict := by
  obtain ⟨packets, rest, splits⟩ := Splits.exists_splits s.self.framing.held
  intro result t ran
  rcases routePackets_eq coherent.framing splits with ⟨fault, -, failed⟩ | ⟨u, host, routed, called, ended⟩
  · rw [failed] at ran
    cases ran
  · rw [ended] at ran
    cases ran
    obtain ⟨reached, isOpen', held⟩ := reaches_routeAll coherent isOpen splits _ _ routed
    refine ⟨reached.quiet called, isOpen', ?_, ?_⟩
    · change ∀ n, Prospect.of u.self.framing.held ≠ _
      exact held ▸ splits.unfinished
    · change _ = (Prospect.of u.self.framing.held).verdict
      rw [held]

theorem reaches_processReceive (coherent : Coherent s) (isOpen : s.self.closed = false)
    (drained : s.self.framing.Drained) :
    Ensures processReceive s fun _ t => Reaches s t ∧ (t.self.closed = true ∨ Continues s t) := by
  simp only [processReceive, ensures_bind, ensures_get]
  -- Every round starts with a drained buffer, since the one before has routed all that it read.
  refine ensures_iterate (I := fun _ t => Continues s t) ?_ ⟨.refl s, isOpen, drained⟩
  rintro - t ⟨reached, isOpen, drained⟩
  simp only [readRound, ensures_bind, ensures_self, ensures_liftM, ensures_call]
  intro size room
  have called := (Host.After.refl t.host).read t.self.socket size
  cases answer : t.host.read t.self.socket size with
  | mk result host =>
  rw [answer] at called
  have read := reached.move (.read isOpen drained room answer)
  dsimp only
  split
  · simp only [ensures_bind, ensures_say, ensures_pure]
    have fails : t.self.Fails host.calls .endOfStream := .endOfStream drained called.last
    refine ((read.note _).ends coherent isOpen fails).mono ?_
    exact fun _ u ended => ⟨ended.1, .inl ended.2⟩
  · next bytes some =>
    simp only [ensures_bind, ensures_modifySelf]
    obtain - | ⟨b, bytes⟩ := bytes
    · exact absurd rfl some
    refine (reaches_routePackets (read.coherent coherent) isOpen).mono ?_
    rintro _ u ⟨routed, isOpen, unfinished, rfl⟩
    have drained := read.trans routed
    cases seen : Prospect.of u.self.framing.held with
    | packet n => exact absurd seen (unfinished n)
    | corrupt n =>
      simp only [Prospect.verdict, ensures_bind, ensures_say, ensures_pure]
      refine ((drained.note _).ends coherent isOpen (.corrupt seen)).mono ?_
      exact fun _ v ended => ⟨ended.1, .inl ended.2⟩
    | unknown | incomplete =>
      simp only [Prospect.verdict, ensures_pure]
      exact ⟨drained, isOpen, unfinished, by simp [seen]⟩
  · exact (ensures_pure _).2 ⟨read, .inr ⟨read, isOpen, drained⟩⟩
  · exact (ensures_pure _).2 ⟨read, isOpen, drained⟩
  · next kind notBlocked notInterrupted =>
    simp only [ensures_bind, ensures_say, ensures_pure]
    have fails : t.self.Fails host.calls (.readError kind) :=
      .readError drained ⟨notBlocked, notInterrupted⟩ called.last
    refine ((read.note _).ends coherent isOpen fails).mono ?_
    exact fun _ u ended => ⟨ended.1, .inl ended.2⟩

/-- Writing goes on until nothing is left or the tunnel refuses, unless it fails. -/
theorem reaches_flush (isOpen : s.self.closed = false) (drained : s.self.framing.Drained) :
    Ensures flush s fun result t => Continues s t ∧
      match result with
      | .ok () => Flushed t
      | .error failure => t.self.Fails t.host.calls (.writeError failure) := by
  simp only [flush, ensures_bind, ensures_get]
  refine ensures_iterate (I := fun _ t => Continues s t) ?_ ⟨.refl s, isOpen, drained⟩
  rintro - t ⟨reached, isOpen, drained⟩
  simp only [flushRound, ensures_bind, ensures_self]
  split
  · next empty => exact (ensures_pure _).2 ⟨⟨reached, isOpen, drained⟩, .inl empty⟩
  next nonempty =>
  rw [Bool.not_eq_true] at nonempty
  simp only [ensures_bind, ensures_liftM, ensures_call]
  intro front offered
  have called := (Host.After.refl t.host).write t.self.socket front
  have latest : (t.host.write t.self.socket front).2.lastWrite t.self.socket = _ :=
    called.lastWrite_eq rfl
  cases answer : t.host.write t.self.socket front with
  | mk result host =>
  rw [answer] at called latest
  have wrote := reached.move (.wrote isOpen drained nonempty offered answer)
  dsimp only
  split
  · exact (ensures_pure _).2 ⟨⟨wrote, isOpen, drained⟩, .writeZero drained called.last⟩
  · next taken some =>
    simp only [ensures_bind, ensures_modifySelf, ensures_pure]
    obtain - | ⟨b, bytes⟩ := taken
    · exact absurd rfl some
    · exact ⟨wrote, isOpen, drained⟩
  · exact (ensures_pure _).2 ⟨⟨wrote, isOpen, drained⟩, .inr latest⟩
  · exact (ensures_pure _).2 ⟨wrote, isOpen, drained⟩
  · next kind notBlocked notInterrupted =>
    have fails : t.self.Fails host.calls (.writeError (.host kind)) :=
      .writeError drained ⟨notBlocked, notInterrupted⟩ called.last
    exact (ensures_pure _).2 ⟨⟨wrote, isOpen, drained⟩, fails⟩

theorem Continues.trans (h : Continues s t) (h' : Continues t u) : Continues s u :=
  ⟨h.reached.trans h'.reached, h'.isOpen, h'.drained⟩

/-- Room for any packet is offered to the flows that wait until none is left. -/
theorem reaches_flushAndPull (coherent : Coherent s) (isOpen : s.self.closed = false)
    (drained : s.self.framing.Drained) :
    Ensures flushAndPull s fun result t => Continues s t ∧
      match result with
      | .ok () => Full t ∧ Flushed t
      | .error failure => t.self.Fails t.host.calls (.writeError failure) := by
  simp only [flushAndPull, ensures_bind]
  refine (reaches_flush isOpen drained).mono ?_
  rintro (failure | _) t ⟨flushed, ended⟩
  · exact (ensures_pure _).2 ⟨flushed, ended⟩
  simp only [ensures_bind, ensures_get]
  -- A pull may fill the ring again, and the flush behind it restores `Flushed`.
  refine ensures_iterate (I := fun _ t => Continues s t ∧ Flushed t) ?_ ⟨flushed, ended⟩
  rintro - t ⟨⟨reached, isOpen, drained⟩, flushed⟩
  simp only [pullRound, ensures_bind, ensures_self]
  split
  · next full => exact (ensures_pure _).2 ⟨⟨reached, isOpen, drained⟩, fun _ => full, flushed⟩
  next room =>
  split
  · next none =>
    exact (ensures_pure _).2 ⟨⟨reached, isOpen, drained⟩, fun some => absurd none some, flushed⟩
  next key rest waiting =>
  simp only [ensures_bind, ensures_modifySelf, ensures_say]
  have noted := reached.note (.session t.self.id (.pulling key))
  have due : (Task.pull key).Due t.self :=
    .pull drained waiting (Nat.le_of_not_lt room)
  have taken : (Task.pull key).takenFrom t.self =
      { t.self with outbox := { t.self.outbox with waiting := rest } } := by
    simp [Task.takenFrom, waiting]
  refine (reaches_task (noted.coherent coherent) isOpen due taken).mono ?_
  rintro _ u ⟨pulled, framing, isOpen⟩
  have next : Continues s u := ⟨noted.trans pulled, isOpen, framing ▸ drained⟩
  refine (reaches_flush isOpen next.drained).mono ?_
  rintro (failure | _) v ⟨goesOn, ended⟩
  · exact (ensures_pure _).2 ⟨next.trans goesOn, ended⟩
  · exact (ensures_pure _).2 ⟨next.trans goesOn, ended⟩

/-- The poller learns what the session waits for, or the session ends. -/
theorem reaches_updateInterest (coherent : Coherent s) (h : Continues s t) (full : Full t)
    (flushed : Flushed t) : Ensures updateInterest t fun _ u => Settles s u := by
  obtain ⟨reached, isOpen, drained⟩ := h
  simp only [updateInterest, ensures_bind, ensures_self]
  apply Registration.ensures_update
  · intro same
    exact (ensures_modifySelf _).2 ⟨reached, .inr ⟨drained, full, flushed, same⟩⟩
  · intro changed host called
    have told := reached.move (.told isOpen drained changed called)
    refine (ensures_modifySelf _).2 ⟨told, .inr ⟨drained, full, ?_, rfl⟩⟩
    refine flushed.imp_right fun last => ?_
    refine (called.lastWrite_eq (Registration.socket?_pollerCall _ _)).trans ?_
    rw [Registration.writeResult?_pollerCall]
    exact last
  · intro changed kind host called
    simp only [ensures_bind, ensures_say]
    have told := reached.move (.told isOpen drained changed called)
    have fails : t.self.Fails host.calls (.refused kind) := .refused drained called.last
    refine ((told.note _).ends coherent isOpen fails).mono ?_
    exact fun _ u ended => .of_closed ended.1 ended.2

/-- Every event ends with the session at rest or closed. -/
theorem reaches_afterEvent (coherent : Coherent s) (reached : Reaches s t)
    (h : t.self.closed = true ∨ Continues s t) :
    Ensures afterEvent t fun _ u => Settles s u := by
  simp only [afterEvent, ensures_bind, ensures_self]
  split
  · next closed => exact (ensures_pure _).2 (.of_closed reached closed)
  next isOpen =>
  have goesOn := h.resolve_left isOpen
  rw [ensures_bind]
  refine (reaches_flushAndPull (reached.coherent coherent) goesOn.isOpen goesOn.drained).mono ?_
  rintro (failure | _) u ⟨flushed, ended⟩
  · simp only [ensures_bind, ensures_say]
    have path := goesOn.trans flushed
    refine ((path.reached.note _).ends coherent path.isOpen ended).mono ?_
    exact fun _ v ended => .of_closed ended.1 ended.2
  · exact reaches_updateInterest coherent (goesOn.trans flushed) ended.1 ended.2

theorem reaches_onReady {readiness : Readiness} (coherent : Coherent s)
    (drained : s.self.closed = false → s.self.framing.Drained) :
    Ensures (onReady readiness) s fun _ t => Settles s t := by
  simp only [onReady, ensures_bind, ensures_self]
  split
  · next closed => exact (ensures_pure _).2 (.of_closed (.refl s) closed)
  next isOpen =>
  rw [Bool.not_eq_true] at isOpen
  split
  · rw [ensures_bind]
    refine (reaches_processReceive coherent isOpen (drained isOpen)).mono ?_
    exact fun _ t h => reaches_afterEvent coherent h.1 h.2
  · exact reaches_afterEvent coherent (.refl s) (.inr ⟨.refl s, isOpen, drained isOpen⟩)

theorem reaches_onFlowReady {key : FlowKey} {readiness : Readiness} (coherent : Coherent s)
    (drained : s.self.closed = false → s.self.framing.Drained) :
    Ensures (onFlowReady key readiness) s fun _ t => Settles s t := by
  simp only [onFlowReady, ensures_bind, ensures_self]
  split
  · next closed => exact (ensures_pure _).2 (.of_closed (.refl s) closed)
  next isOpen =>
  rw [Bool.not_eq_true] at isOpen
  rw [ensures_bind]
  have due : (Task.ready key readiness).Due s.self := .ready (drained isOpen) key readiness
  refine (reaches_task coherent isOpen due rfl).mono ?_
  rintro _ t ⟨reached, framing, isOpen'⟩
  exact reaches_afterEvent coherent reached (.inr ⟨reached, isOpen', framing ▸ drained isOpen⟩)

/-- Ending flows that expired does not disturb a session at rest. -/
theorem reaches_sweep {now : Nat} (coherent : Coherent s) (h : Rests s) :
    Ensures (sweep now) s fun _ t => Settles s t := by
  simp only [sweep, ensures_bind, ensures_self]
  split
  · next closed => exact (ensures_pure _).2 (.of_closed (.refl s) closed)
  next isOpen =>
  obtain ⟨intact, full, flushed, interest⟩ := h.resolve_left isOpen
  rw [Bool.not_eq_true] at isOpen
  rw [ensures_withTable]
  intro _ v ran
  -- A sweep leaves the outbox alone and calls nothing on the tunnel.
  obtain ⟨⟨calls, served⟩, out⟩ := FlowTable.ensures_sweep coherent.sound _ _ ran
  obtain ⟨table, registry, outbox, host⟩ := v
  obtain rfl : outbox = s.self.outbox := out
  have swept := (Reaches.refl s).move (.served isOpen (.sweep intact.drained now) ran served.adds)
  refine ⟨swept, .inr ⟨intact.drained, full, ?_, interest⟩⟩
  exact flushed.imp_right served.aside.lastWrite_eq.trans

theorem ensures_sweep_closed {now : Nat} :
    Ensures (sweep now) s fun _ t => t.self.closed = s.self.closed := by
  simp only [sweep, ensures_bind, ensures_self]
  split
  · exact (ensures_pure _).2 rfl
  · rw [ensures_withTable]
    exact fun _ _ _ => rfl

/-- Whatever an open session does, the poller knows what the registration says. -/
theorem Move.polled {deed : Deed} (coherent : Coherent s) (h : Move s deed t)
    (known : s.host.polled s.self.socket = s.self.registration.interest)
    (isOpen : t.self.closed = false) :
    t.host.polled t.self.socket = t.self.registration.interest := by
  cases h with
  | read _ _ _ answer =>
    have called := after_read answer
    change Host.polled _ (s.self.received _).socket = (s.self.received _).registration.interest
    unfold received
    split <;> exact (called.polled_eq rfl).trans known
  | wrote _ _ _ _ answer =>
    have called := after_write answer
    change Host.polled _ (s.self.relieved _).socket = (s.self.relieved _).registration.interest
    unfold relieved
    split <;> exact (called.polled_eq rfl).trans known
  | @told _ _ _ outcome _ called =>
    refine (called.polled_eq (Registration.socket?_pollerCall _ _)).trans ?_
    cases outcome with
    | none =>
      rw [Registration.accepted?_pollerCall]
      rfl
    | some kind =>
      rw [Registration.accepted?_pollerCall_of_refused]
      exact known
  | @served _ task due v ran _ adds =>
    have takes := Task.takes due
    have aside := (Task.served coherent due ran adds).aside
    change v.host.polled (task.takenFrom s.self).socket =
      (task.takenFrom s.self).registration.interest
    rw [takes.socket_eq, takes.registration_eq, aside.polled_eq]
    exact known
  | closed isOpen' _ ran adds =>
    obtain ⟨_, -, same⟩ := (closes_of_close coherent isOpen' ran adds).self_eq
    rw [same] at isOpen
    cases isOpen

theorem Path.of_closed {deeds : List Deed} (closed : s.self.closed = true) (path : Path s deeds t) :
    deeds = [] ∧ t.self = s.self := by
  refine path.induct (I := fun deeds t => deeds = [] ∧ t.self = s.self) ?_ ?_ [] ⟨rfl, rfl⟩
  · exact fun _ _ _ h _ => h
  · rintro _ t deed u ⟨-, same⟩ step
    have isOpen := step.isOpen
    rw [same, closed] at isOpen
    cases isOpen

theorem Settles.rests (h : Settles s t) (coherent : Coherent s) (rests : Rests s) : Rests t := by
  obtain ⟨⟨deeds, path⟩, settled⟩ := h
  rcases rests with closed | rests
  -- A closed session has made no move at all.
  · obtain ⟨-, same⟩ := path.of_closed closed
    exact .inl (same ▸ closed)
  have known : Coherent t ∧ (t.self.closed = false →
      t.host.polled t.self.socket = t.self.registration.interest) := by
    refine path.induct (I := fun _ t => Coherent t ∧ (t.self.closed = false →
      t.host.polled t.self.socket = t.self.registration.interest)) ?_ ?_ []
      ⟨coherent, fun _ => rests.intact.polled⟩
    · rintro _ t host ⟨coherent, known⟩ called
      refine ⟨coherent.world _ called.adds.nextSocket_le, fun isOpen => ?_⟩
      exact (called.aside (List.forall_mem_nil _)).polled_eq.trans (known isOpen)
    · rintro _ t deed u ⟨coherent, known⟩ step
      exact ⟨step.coherent coherent, step.polled coherent (known step.isOpen)⟩
  by_cases closed : t.self.closed = true
  · exact .inl closed
  · obtain ⟨drained, full, flushed, interest⟩ := settled.resolve_left closed
    have polled := known.2 (by simpa using closed)
    exact .inr ⟨⟨known.1, polled, drained⟩, full, flushed, interest⟩

/-- What comes of starting a session on a socket: it is registered, or closed again. -/
structure Starts {α : Type} (id : Nat) (socket : SocketId) (s : Scene α Unit) (calls : List Event)
    (result : Except Failure Session) (t : Scene α Unit) : Prop where
  self_eq : t.self = s.self
  adds : s.host.Adds calls t.host
  own : ∀ e ∈ calls, ∀ other, e.socket? = some other → other = socket
  exchange : Exchange s.registry s.host [⟨socket, none⟩] t.registry t.host
    (match result with
      | .ok session => session.holdings
      | .error _ => [])
  fresh {session : Session} (started : result = .ok session) :
    session.id = id ∧ session.socket = socket ∧ session.closed = false ∧ session.framing = {} ∧
      session.outbox.ring.toList = []
  rests {session : Session} (started : result = .ok session) :
    AtRest ⟨session, t.registry, (), t.host⟩

/-- A session starts at rest. -/
theorem ensures_start {α : Type} {id : Nat} {socket : SocketId} {config : Config}
    {s : Scene α Unit} (valid : config.Valid) (opened : socket < s.host.nextSocket) :
    Ensures (start id socket config) s fun result t =>
      ∃ calls, Starts id socket s calls result t := by
  simp only [start, ensures_bind]
  apply Registration.ensures_enter
  · intro host called
    simp only [ensures_bind, ensures_note, ensures_liftM, ensures_pure]
    intro ring hc
    have sound := StreamRing.sound_of_ofCapacity hc
    have none := StreamRing.toList_of_ofCapacity hc
    have empty : ring.isEmpty = true := (StreamRing.isEmpty_iff sound).2 none
    have noted := called.note (.session id .connected)
    refine ⟨_, rfl, noted.adds, ?_, ?_, ?_, ?_⟩
    · simp [Event.socket?]
    · exact .entered noted.adds (Event.keepTo_register _ _ _ _)
    · rintro _ ⟨⟩
      exact ⟨rfl, rfl, rfl, rfl, none⟩
    · rintro _ ⟨⟩
      have capacity : maxPacketLength ≤ ring.capacity := by
        rw [StreamRing.capacity_of_ofCapacity hc]
        exact valid.le_tunnelCapacity
      have flows : FlowTable.Sound socket [] [] :=
        ⟨List.nodup_nil, List.forall_mem_nil _, List.forall_mem_nil _⟩
      have later := Nat.lt_of_lt_of_le opened noted.adds.nextSocket_le
      refine ⟨⟨⟨later, rfl, flows, List.nodup_nil, capacity, sound, Framing.sound_empty,
        List.forall_mem_nil _⟩, noted.polled_eq rfl, Framing.drained_empty⟩, ?_, .inl empty, ?_⟩
      · exact fun some => absurd rfl some
      · simp [wanted, empty]
  · intro kind host called
    simp only [ensures_bind, ensures_tell, ensures_pure]
    refine ⟨_, rfl, called.adds.trans (Host.adds_close _ _), ?_, ?_, by simp, by simp⟩
    · simp [Event.socket?]
    · refine (Exchange.refused called.adds ?_).trans (.close _ _ _)
      exact Event.keepTo_register _ _ _ _

/-- A session starts without flows, and with the configuration that it is given. -/
theorem table_of_start {α : Type} {id : Nat} {socket : SocketId} {config : Config}
    {s t : Scene α Unit} {session : Session}
    (started : start id socket config s = .ok (.ok session, t)) :
    session.table = { session := id, config } := by
  have all : Ensures (start id socket config) s fun result _ =>
      ∀ session, result = .ok session → session.table = { session := id, config } := by
    simp only [start, ensures_bind]
    apply Registration.ensures_enter
    · intro host called
      simp only [ensures_bind, ensures_note, ensures_liftM, ensures_pure]
      rintro ring - _ ⟨⟩
      rfl
    · intro kind host called
      simp only [ensures_bind, ensures_tell, ensures_pure]
      rintro _ ⟨⟩
  exact all _ _ started session rfl

end Session

end TunnelRelay
