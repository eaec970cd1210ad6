import TunnelRelay.Proofs.Reactor.Steps
import TunnelRelay.Proofs.Session.LastUse

/-!
# The flows of all sessions

Whatever a reactor does on a signal takes no time, and it leaves the time of the next sweep as it is.
Afterwards the UDP flows of all sessions still know when they were last in use.
-/

namespace TunnelRelay

open Act

theorem Host.clock_accept (h : Host) (listener : SocketId) :
    (h.accept listener).2.clock = h.clock := by
  unfold accept
  dsimp only
  split <;> rfl

namespace Reactor

/-- The open sessions have been dated and have the configuration of the reactor. -/
def Dated (log : List (Nat × Event)) (r : Reactor) : Prop :=
  ∀ entry ∈ r.sessions, entry.2.closed = false →
    entry.2.table.config = r.config ∧ entry.2.Dated r.listener log

/-- What a reactor becomes by some calls that it makes at one time. -/
structure Moment (calls : List Event) (s t : Scene Reactor Unit) : Prop where
  config_eq : t.self.config = s.self.config
  listener_eq : t.self.listener = s.self.listener
  nextSweep_eq : t.self.nextSweep = s.self.nextSweep
  clock_eq : t.host.clock = s.host.clock
  adds : s.host.Adds calls t.host
  dated : ∀ log, (∀ x ∈ log, x.1 ≤ s.host.clock) → Dated log s.self →
    Dated (log ++ calls.map (s.host.clock, ·)) t.self

variable {s t u : Scene Reactor Unit} {id : Nat} {calls first second : List Event}

namespace Moment

theorem quiet (s : Scene Reactor Unit) {host : Host} (called : s.host.After [] host) :
    Moment [] s { s with host } :=
  ⟨rfl, rfl, rfl, called.clock_eq, called.adds, fun log _ dated => by simpa using dated⟩

theorem refl (s : Scene Reactor Unit) : Moment [] s s := quiet s (.refl _)

theorem trans (h : Moment first s t) (h' : Moment second t u) : Moment (first ++ second) s u where
  config_eq := h'.config_eq.trans h.config_eq
  listener_eq := h'.listener_eq.trans h.listener_eq
  nextSweep_eq := h'.nextSweep_eq.trans h.nextSweep_eq
  clock_eq := h'.clock_eq.trans h.clock_eq
  adds := h.adds.trans h'.adds
  dated log past dated := by
    have later := h'.dated (log ++ first.map (s.host.clock, ·)) ?_ (h.dated log past dated)
    · rwa [h.clock_eq, List.append_assoc, ← List.map_append] at later
    rw [h.clock_eq]
    exact stamps_le past _

end Moment

private theorem moment_of_sessions (config_eq : t.self.config = s.self.config)
    (listener_eq : t.self.listener = s.self.listener)
    (nextSweep_eq : t.self.nextSweep = s.self.nextSweep) (clock_eq : t.host.clock = s.host.clock)
    (adds : s.host.Adds calls t.host)
    (sessions : ∀ entry ∈ t.self.sessions, entry.2.closed = false →
      entry ∈ s.self.sessions ∧ Untouched entry.2 s.host t.host ∨
        ∀ log, (∀ x ∈ log, x.1 ≤ s.host.clock) → Dated log s.self →
          entry.2.table.config = s.self.config ∧
            entry.2.Dated s.self.listener (log ++ calls.map (s.host.clock, ·))) :
    Moment calls s t := by
  refine ⟨config_eq, listener_eq, nextSweep_eq, clock_eq, adds, fun log past dated => ?_⟩
  intro entry mem isOpen
  rw [config_eq, listener_eq]
  rcases sessions entry mem isOpen with ⟨old, untouched⟩ | other
  · obtain ⟨config, dates⟩ := dated entry old isOpen
    exact ⟨config, dates.of_spares past fun x hx => adds.spares (untouched x hx)⟩
  · exact other log past dated

theorem Orderly.kept_session (orderly : Orderly s) {session : Session}
    (mem : (id, session) ∈ s.self.sessions) :
    ∃ others, Kept s.registry s.host (session.holdings ++ others) := by
  obtain ⟨before, after, split⟩ := List.append_of_mem mem
  refine ⟨s.self.listening :: held (before ++ after), orderly.kept.perm ?_⟩
  have first : s.self.sessions.Perm ((id, session) :: (before ++ after)) := split ▸ List.perm_middle
  have all : (held s.self.sessions).Perm (session.holdings ++ held (before ++ after)) :=
    first.flatMap_right _
  exact (all.cons _).trans List.perm_middle.symm

theorem moment_onSession (operation : Session.Operation) (orderly : Orderly s) (tidy : Tidy s) :
    Ensures (onSession id operation.perform) s fun _ t => ∃ calls, Moment calls s t := by
  intro _ t ran
  obtain ⟨-, confined, -⟩ := ensures_onSession operation orderly _ _ ran
  rcases onSession_inv operation.perform _ _ ran with ⟨-, rfl⟩ | ⟨session, u, mem, performed, rfl⟩
  · exact ⟨[], .refl _⟩
  have run : Session.Run ⟨session, s.registry, (), s.host⟩ := orderly.runs _ mem
  obtain ⟨others, kept⟩ := orderly.kept_session mem
  obtain ⟨clock, calls, adds, serves⟩ := run.serves kept performed
  refine ⟨calls, moment_of_sessions rfl rfl rfl clock adds fun entry mem' isOpen => ?_⟩
  rcases mem_putSession mem' with rfl | ⟨old, other⟩
  · refine .inr fun log past dated => ?_
    obtain ⟨packets, serves⟩ := serves isOpen
    obtain ⟨config, dates⟩ := dated _ mem (tidy _ mem)
    exact ⟨serves.config_eq.trans config, dates.serves past serves⟩
  · exact .inl ⟨old, (confined.stays entry old fun same => other (Option.some.inj same).symm).2⟩

theorem moment_removeIfClosed (orderly : Orderly s) :
    Ensures (removeIfClosed id) s fun _ t => ∃ calls, Moment calls s t := by
  intro _ t ran
  obtain ⟨-, confined, -⟩ := ensures_removeIfClosed orderly _ _ ran
  have all : Ensures (removeIfClosed id) s fun _ t => t = s ∨ ∃ socket notice,
      t = ⟨{ s.self with sessions := s.self.sessions.filter fun entry => entry.1 != id }, s.registry,
        (), (s.host.close socket).record (.notice notice)⟩ := by
    simp only [removeIfClosed, ensures_bind, ensures_self]
    split
    · exact (ensures_pure _).2 (.inl rfl)
    · split
      · simp only [ensures_bind, ensures_modifySelf, ensures_tell, ensures_self, ensures_note]
        exact .inr ⟨_, _, rfl⟩
      · exact (ensures_pure _).2 (.inl rfl)
  rcases all _ _ ran with rfl | ⟨socket, notice, rfl⟩
  · exact ⟨[], .refl _⟩
  have called := ((Host.After.refl s.host).record (e := .close socket) rfl).note notice
  refine ⟨_, moment_of_sessions rfl rfl rfl called.clock_eq called.adds fun entry mem _ => .inl ?_⟩
  obtain ⟨old, other⟩ := List.mem_filter.1 mem
  refine ⟨old, (confined.stays entry old ?_).2⟩
  rintro ⟨⟩
  simp at other

private theorem moment_act (operation : Session.Operation) (orderly : Orderly s) (tidy : Tidy s) :
    Ensures (do onSession id operation.perform; removeIfClosed id) s fun _ t =>
      ∃ calls, Moment calls s t := by
  rw [ensures_bind]
  intro _ t ran
  obtain ⟨first, acted⟩ := moment_onSession operation orderly tidy _ _ ran
  obtain ⟨orderly', -, -⟩ := ensures_onSession operation orderly _ _ ran
  refine (moment_removeIfClosed orderly').mono ?_
  rintro _ u ⟨second, removed⟩
  exact ⟨_, acted.trans removed⟩

/-- A session that was let in by these calls. -/
structure Newcomer (r : Reactor) (calls : List Event) (session : Session) : Prop where
  accepted : ∃ rest, calls = .accept r.listener (.ok session.socket) :: rest ∧
    ∀ e ∈ rest, e.arrived session.socket = []
  framing_eq : session.framing = {}
  table_eq : ∃ id, session.table = { session := id, config := r.config }

theorem Newcomer.dated {r : Reactor} {session : Session} (h : Newcomer r calls session)
    (log : List (Nat × Event)) (now : Nat) : session.table.config = r.config ∧
      session.Dated r.listener (log ++ calls.map (now, ·)) := by
  obtain ⟨⟨rest, rfl, unread⟩, framing, id, table⟩ := h
  exact ⟨by rw [table], Session.dated_of_start framing (by rw [table]) unread⟩

/-- What the reactor has become by a call of `accept` and what follows from it. -/
structure Accepts (calls : List Event) (s t : Scene Reactor Unit) : Prop where
  config_eq : t.self.config = s.self.config
  listener_eq : t.self.listener = s.self.listener
  nextSweep_eq : t.self.nextSweep = s.self.nextSweep
  clock_eq : t.host.clock = s.host.clock
  adds : s.host.Adds calls t.host
  sessions : ∀ entry ∈ t.self.sessions,
    entry ∈ s.self.sessions ∨ Newcomer s.self calls entry.2

theorem Accepts.note (h : Accepts calls s t) (notice : Notice) :
    Accepts calls s { t with host := t.host.record (.notice notice) } :=
  ⟨h.config_eq, h.listener_eq, h.nextSweep_eq, h.clock_eq, h.adds.note notice, h.sessions⟩

private theorem accepts_start {socket : SocketId} {host host' : Host} {outcome : Outcome}
    {id : Nat} {next : UInt32} (accepted : s.host.Adds [.accept s.self.listener (.ok socket)] host)
    (clock : host.clock = s.host.clock) (set : host.After [.setNoDelay socket outcome] host') :
    Ensures (Session.start id socket s.self.config)
      ⟨{ s.self with nextSession := next }, s.registry, (), host'⟩ fun result t =>
      ∃ calls, Accepts calls s { t with self := { t.self with
        sessions := t.self.sessions ++ result.toOption.toList.map (id, ·) } } := by
  intro result t started
  obtain ⟨self, clock', ⟨calls, adds, unread⟩, fresh⟩ := Session.starts_empty _ _ started
  obtain ⟨_, registry, ⟨⟩, _⟩ := t
  obtain rfl := self
  refine ⟨_, rfl, rfl, rfl, (clock'.trans set.clock_eq).trans clock,
    (accepted.trans set.adds).trans adds, fun entry mem => ?_⟩
  rcases List.mem_append.1 mem with old | new
  · exact .inl old
  obtain ⟨session, started, rfl⟩ := List.mem_map.1 new
  cases result with
  | error failure => cases started
  | ok _ =>
    obtain rfl := List.mem_singleton.1 started
    obtain ⟨own, framing, table⟩ := fresh _ rfl
    refine .inr ⟨⟨.setNoDelay socket outcome :: calls, by rw [own]; rfl, ?_⟩, framing, id, table⟩
    rw [own]
    exact List.forall_mem_cons.2 ⟨rfl, unread⟩

private theorem accepts_acceptRound :
    Ensures (acceptRound ()) s fun _ t => ∃ calls, Accepts calls s t := by
  simp only [acceptRound, ensures_bind, ensures_self, ensures_call]
  have created := Host.creates_accept s.host s.self.listener
  have clock := Host.clock_accept s.host s.self.listener
  have failed : Accepts _ s { s with host := (s.host.accept s.self.listener).2 } :=
    ⟨rfl, rfl, rfl, clock, created.adds, fun _ mem => .inl mem⟩
  split
  · next socket peer accepted =>
    have adds := created.adds
    rw [accepted] at adds
    have set := (Host.After.refl (s.host.accept s.self.listener).2).setNoDelay socket
    simp only [ensures_bind, ensures_call]
    split
    all_goals
      simp only [ensures_bind, ensures_liftM, ensures_note, ensures_setSelf]
      intro next numbered
      refine (accepts_start adds clock (by first | exact (set.note _).note _ | exact set.note _)).mono ?_
      rintro (failure | session) t ⟨calls, accepts⟩
      · simp only [ensures_bind, ensures_note, ensures_pure]
        have rejected : Accepts calls s t := by simpa [Except.toOption] using accepts
        exact ⟨calls, rejected.note _⟩
      · simp only [ensures_bind, ensures_modifySelf, ensures_pure]
        exact ⟨calls, accepts⟩
  · exact (ensures_pure _).2 ⟨_, failed⟩
  · exact (ensures_pure _).2 ⟨_, failed⟩
  · simp only [ensures_bind, ensures_note, ensures_pure]
    exact ⟨_, failed.note _⟩

theorem moment_acceptRound (orderly : Orderly s) (tidy : Tidy s) :
    Ensures (acceptRound ()) s fun _ t => ∃ calls, Moment calls s t := by
  intro result t ran
  obtain ⟨-, -, confined⟩ := admits_acceptRound orderly tidy _ _ ran
  obtain ⟨calls, accepts⟩ := accepts_acceptRound _ _ ran
  refine ⟨calls, moment_of_sessions accepts.config_eq accepts.listener_eq accepts.nextSweep_eq
    accepts.clock_eq accepts.adds fun entry mem _ => ?_⟩
  rcases accepts.sessions entry mem with old | newcomer
  · exact .inl ⟨old, (confined.stays entry old (by rintro ⟨⟩)).2⟩
  · exact .inr fun log _ _ => newcomer.dated log _

theorem moment_acceptAll (orderly : Orderly s) (tidy : Tidy s) :
    Ensures acceptAll s fun _ t => ∃ calls, Moment calls s t := by
  simp only [acceptAll, ensures_bind, ensures_get]
  refine ensures_iterate (I := fun _ t => Orderly t ∧ Tidy t ∧ ∃ calls, Moment calls s t) ?_
    ⟨orderly, tidy, _, .refl s⟩
  rintro - t ⟨orderly, tidy, first, moment⟩
  intro round u ran
  obtain ⟨orderly', tidy', -⟩ := admits_acceptRound orderly tidy _ _ ran
  obtain ⟨second, moment'⟩ := moment_acceptRound orderly tidy _ _ ran
  cases round with
  | again => exact ⟨orderly', tidy', _, moment.trans moment'⟩
  | done => exact ⟨_, moment.trans moment'⟩

theorem moment_dispatch {token : Nat} {readiness : Readiness} (orderly : Orderly s) (tidy : Tidy s) :
    Ensures (dispatch token readiness) s fun _ t => ∃ calls, Moment calls s t := by
  simp only [dispatch, ensures_bind, ensures_get]
  split
  · exact (ensures_note _).2 ⟨_, .quiet s ((Host.After.refl _).note _)⟩
  · exact moment_acceptAll orderly tidy
  · exact moment_act (.ready readiness) orderly tidy
  · exact moment_act (.flowReady _ readiness) orderly tidy

/-- All that is done on signals is done at one time. -/
theorem moment_dispatchAll {signals : List (Nat × Signal)} (orderly : Orderly s) (tidy : Tidy s) :
    Ensures (dispatchAll signals) s fun _ t => Orderly t ∧ Tidy t ∧ ∃ calls, Moment calls s t := by
  induction signals generalizing s with
  | nil => exact (ensures_pure _).2 ⟨orderly, tidy, _, .refl s⟩
  | cons signal rest ih =>
    obtain ⟨token, signal⟩ := signal
    rw [dispatchAll, ensures_bind]
    intro _ t dispatched
    obtain ⟨orderly', tidy', -⟩ := ensures_dispatch orderly tidy _ _ dispatched
    obtain ⟨first, moment⟩ := moment_dispatch orderly tidy _ _ dispatched
    refine (ih orderly' tidy').mono ?_
    rintro _ u ⟨orderly'', tidy'', second, moment'⟩
    exact ⟨orderly'', tidy'', _, moment.trans moment'⟩

end Reactor

end TunnelRelay
