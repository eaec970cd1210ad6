import TunnelRelay.Proofs.Session.Trace
import TunnelRelay.Reactor

/-!
# What the reactor keeps

Every session of a reactor runs on its own, whatever the others do, and all of them together hold the
sockets of the relay but for the listener's. A signal makes one session act, or lets new ones in.
-/

namespace TunnelRelay

open Act

/-- The number of the session that a handler belongs to. -/
def Handler.session? : Handler → Option Nat
  | listener => none
  | session id | flow id _ => some id

namespace Reactor

/-- The listener's socket, which always has an entry. -/
def listening (r : Reactor) : Holding := ⟨r.listener, some (r.registration.token, .listener)⟩

/-- The sockets that sessions hold. -/
def held (sessions : List (Nat × Session)) : List Holding :=
  sessions.flatMap fun entry => entry.2.holdings

/-- The reactor's table is exact, and its sessions have run under their own numbers. -/
structure Orderly (s : Scene Reactor Unit) : Prop where
  checked : s.self.config.check = .ok ()
  kept : Kept s.registry s.host (s.self.listening :: held s.self.sessions)
  numbers : (s.self.sessions.map Prod.fst).Nodup
  below : ∀ entry ∈ s.self.sessions, entry.1 < s.self.nextSession.toNat
  named : ∀ entry ∈ s.self.sessions, entry.2.id = entry.1
  configured : ∀ entry ∈ s.self.sessions, entry.2.table.config = s.self.config
  runs : ∀ entry ∈ s.self.sessions, Session.Run ⟨entry.2, s.registry, (), s.host⟩

/-- Sessions that have ended are gone. -/
def Tidy (s : Scene Reactor Unit) : Prop := ∀ entry ∈ s.self.sessions, entry.2.closed = false

/-- No call is made on the sockets that the session holds. -/
def Untouched (session : Session) (h h' : Host) : Prop :=
  ∀ x ∈ session.holdings, Host.Aside x.socket h h'

/-- At most the session with the number `owner` acts. If sessions are let in, they get numbers that no
session has had. -/
structure Confined (owner : Option Nat) (admits : Prop) (s t : Scene Reactor Unit) : Prop where
  nextSession_le : s.self.nextSession.toNat ≤ t.self.nextSession.toNat
  stays : ∀ entry ∈ s.self.sessions, owner ≠ some entry.1 →
    entry ∈ t.self.sessions ∧ Untouched entry.2 s.host t.host
  new : ∀ entry ∈ t.self.sessions, owner ≠ some entry.1 →
    entry ∈ s.self.sessions ∨ admits ∧ s.self.nextSession.toNat ≤ entry.1

variable {s t u : Scene Reactor Unit} {id : Nat} {owner : Option Nat} {admits : Prop}

theorem Confined.refl (s : Scene Reactor Unit) : Confined owner admits s s :=
  ⟨Nat.le_refl _, fun _ mem _ => ⟨mem, fun _ _ => .refl _⟩, fun _ mem _ => .inl mem⟩

theorem Confined.trans (h : Confined owner admits s t) (h' : Confined owner admits t u) :
    Confined owner admits s u where
  nextSession_le := Nat.le_trans h.nextSession_le h'.nextSession_le
  stays entry mem other := by
    obtain ⟨mem', aside⟩ := h.stays entry mem other
    obtain ⟨mem'', aside'⟩ := h'.stays entry mem' other
    exact ⟨mem'', fun x hx => (aside x hx).trans (aside' x hx)⟩
  new entry mem other := by
    rcases h'.new entry mem other with mem' | ⟨admitted, later⟩
    · exact h.new entry mem' other
    · exact .inr ⟨admitted, Nat.le_trans h.nextSession_le later⟩

theorem Confined.imp {admits' : Prop} (h : Confined owner admits s t)
    (weaker : admits → admits') : Confined owner admits' s t :=
  ⟨h.nextSession_le, h.stays, fun entry mem other =>
    (h.new entry mem other).imp_right (·.imp_left weaker)⟩

theorem held_append (first second : List (Nat × Session)) :
    held (first ++ second) = held first ++ held second := List.flatMap_append

/-- What some sessions and the listener do is an exchange of what they hold; the other sessions run
on undisturbed. -/
theorem Orderly.exchange (orderly : Orderly s) (r : Reactor) {registry : Registry} {host : Host}
    (gone now : List (Nat × Session)) {stay : List (Nat × Session)}
    (before : s.self.sessions.Perm (gone ++ stay))
    (after : r.sessions.Perm (now ++ stay)) (config : r.config = s.self.config)
    (same : r.listening = s.self.listening)
    (later : s.self.nextSession.toNat ≤ r.nextSession.toNat)
    (exchange : Exchange s.registry s.host (s.self.listening :: held gone) registry host
      (s.self.listening :: held now))
    (numbers : ((now ++ stay).map Prod.fst).Nodup)
    (runs : ∀ entry ∈ now, entry.1 < r.nextSession.toNat ∧ entry.2.id = entry.1 ∧
      entry.2.table.config = s.self.config ∧ Session.Run ⟨entry.2, registry, (), host⟩) :
    Orderly ⟨r, registry, (), host⟩ ∧ ∀ entry ∈ stay, Untouched entry.2 s.host host := by
  -- The sessions that stay are the frame for what the others and the listener do.
  have split : (s.self.listening :: held s.self.sessions).Perm
      ((s.self.listening :: held gone) ++ held stay) := by
    rw [List.cons_append, ← held_append]
    exact (before.flatMap_right _).cons _
  have join : ((s.self.listening :: held now) ++ held stay).Perm
      (r.listening :: held r.sessions) := by
    rw [List.cons_append, ← held_append, same]
    exact (after.symm.flatMap_right _).cons _
  obtain ⟨kept, aside⟩ := exchange _ (orderly.kept.perm split)
  have untouched : ∀ entry ∈ stay, Untouched entry.2 s.host host := fun entry mem x hx =>
    aside x (List.mem_flatMap.2 ⟨entry, mem, hx⟩)
  have stayed : ∀ entry ∈ stay, entry ∈ s.self.sessions := fun entry mem =>
    before.mem_iff.2 (List.mem_append_right _ mem)
  have all {P : Nat × Session → Prop} (first : ∀ entry ∈ now, P entry)
      (others : ∀ entry ∈ stay, P entry) : ∀ entry ∈ r.sessions, P entry :=
    fun entry mem => (List.mem_append.1 (after.mem_iff.1 mem)).elim (first entry) (others entry)
  refine ⟨⟨config ▸ orderly.checked, kept.perm join, (after.map _).nodup_iff.2 numbers, ?_, ?_, ?_,
    ?_⟩, untouched⟩
  · exact all (fun entry mem => (runs entry mem).1)
      fun entry mem => Nat.lt_of_lt_of_le (orderly.below entry (stayed entry mem)) later
  · exact all (fun entry mem => (runs entry mem).2.1)
      fun entry mem => orderly.named entry (stayed entry mem)
  · rw [config]
    exact all (fun entry mem => (runs entry mem).2.2.1)
      fun entry mem => orderly.configured entry (stayed entry mem)
  · refine all (fun entry mem => (runs entry mem).2.2.2) fun entry mem => ?_
    exact (orderly.runs entry (stayed entry mem)).world registry
      (untouched entry mem _ List.mem_cons_self)

theorem Orderly.adds (orderly : Orderly s) {calls : List Event} {host : Host}
    (added : s.host.Adds calls host) (quiet : ∀ e ∈ calls, e.socket? = none) :
    Orderly { s with host } ∧ ∀ {owner admits}, Confined owner admits s { s with host } := by
  obtain ⟨orderly', untouched⟩ := orderly.exchange s.self [] [] (.refl _) (.refl _) rfl rfl
    (Nat.le_refl _) (.of_adds added quiet) orderly.numbers (List.forall_mem_nil _)
  exact ⟨orderly', Nat.le_refl _, fun entry mem _ => ⟨mem, untouched entry mem⟩,
    fun _ mem _ => .inl mem⟩

theorem Orderly.note (orderly : Orderly s) (notice : Notice) :
    Orderly { s with host := s.host.record (.notice notice) } ∧
      ∀ {owner admits}, Confined owner admits s { s with host := s.host.record (.notice notice) } :=
  orderly.adds (Host.Adds.note (.refl _) notice) (List.forall_mem_nil _)

theorem mem_of_lookup {sessions : List (Nat × Session)} {session : Session}
    (found : sessions.lookup id = some session) : (id, session) ∈ sessions := by
  obtain ⟨before, after, rfl, -⟩ := List.lookup_eq_some_iff.1 found
  exact List.mem_append_right _ List.mem_cons_self

/-- The session that is found is the only one of its number. -/
theorem lookup_inv {sessions : List (Nat × Session)} {session : Session}
    (numbers : (sessions.map Prod.fst).Nodup) (found : sessions.lookup id = some session) :
    ∃ before after, sessions = before ++ (id, session) :: after ∧
      ∀ entry ∈ before ++ after, entry.1 ≠ id := by
  obtain ⟨before, after, rfl, -⟩ := List.lookup_eq_some_iff.1 found
  refine ⟨before, after, rfl, fun entry mem same => ?_⟩
  have perm : (before ++ (id, session) :: after).Perm ((id, session) :: (before ++ after)) :=
    List.perm_middle
  have distinct := (perm.map Prod.fst).nodup_iff.1 numbers
  rw [List.map_cons, List.nodup_cons] at distinct
  exact distinct.1 (List.mem_map.2 ⟨entry, mem, same⟩)

/-- The session takes the place of the one that it replaces. -/
theorem sessions_putSession {r : Reactor} {session : Session}
    {before after : List (Nat × Session)} (split : r.sessions = before ++ (id, session) :: after)
    (others : ∀ entry ∈ before ++ after, entry.1 ≠ id) (session' : Session) :
    (putSession id session' r).sessions = before ++ (id, session') :: after := by
  have stays {part : List (Nat × Session)} (h : ∀ entry ∈ part, entry.1 ≠ id) :
      part.map (fun entry => if entry.1 = id then (id, session') else entry) = part :=
    (List.map_congr_left fun entry mem => if_neg (h entry mem)).trans (List.map_id _)
  obtain ⟨first, last⟩ := List.forall_mem_append.1 others
  rw [putSession, split, List.map_append, List.map_cons, stays first, stays last, if_pos rfl]

theorem session_eq {session : Session} {before after : List (Nat × Session)}
    (others : ∀ entry ∈ before ++ after, entry.1 ≠ id) {entry : Nat × Session}
    (mem : entry ∈ before ++ (id, session) :: after) (number : entry.1 = id) :
    entry.2 = session := by
  rcases List.mem_cons.1 (List.perm_middle.mem_iff.1 mem) with rfl | stays
  · rfl
  · exact absurd number (others entry stays)

private theorem Orderly.replace (orderly : Orderly s) {registry : Registry} {host : Host}
    {session : Session} {session? : Option Session} {sessions before after : List (Nat × Session)}
    (split : s.self.sessions = before ++ (id, session) :: after)
    (joined : sessions = before ++ (session?.map (id, ·)).toList ++ after)
    (exchange : Exchange s.registry s.host session.holdings registry host
      (session?.toList.flatMap Session.holdings))
    (runs : ∀ session' ∈ session?, session'.id = id ∧ session'.table.config = s.self.config ∧
      Session.Run ⟨session', registry, (), host⟩) :
    Orderly ⟨{ s.self with sessions }, registry, (), host⟩ ∧
      Confined (some id) False s ⟨{ s.self with sessions }, registry, (), host⟩ := by
  have first : s.self.sessions.Perm ([(id, session)] ++ (before ++ after)) :=
    split ▸ List.perm_middle
  have last : sessions.Perm ((session?.map (id, ·)).toList ++ (before ++ after)) := by
    rw [joined, ← List.append_assoc]
    exact List.perm_append_comm.append_right _
  -- The listener takes no part in what the session does.
  have whole : Exchange s.registry s.host (s.self.listening :: held [(id, session)]) registry host
      (s.self.listening :: held (session?.map (id, ·)).toList) := by
    have around (h : List Holding) : (s.self.listening :: h).Perm (h ++ [s.self.listening]) :=
      (List.perm_append_singleton _ h).symm
    have framed := exchange.frame [s.self.listening]
    have gone : held [(id, session)] = session.holdings := by simp [held]
    have now : held (session?.map (id, ·)).toList = session?.toList.flatMap Session.holdings := by
      cases session? <;> rfl
    rw [gone, now]
    exact (framed.perm_left (around _)).perm_right (around _).symm
  have own : ∀ entry ∈ (session?.map (id, ·)).toList, entry.1 = id := by
    cases session? <;> simp
  have numbers : (((session?.map (id, ·)).toList ++ (before ++ after)).map Prod.fst).Nodup := by
    have distinct := (first.map Prod.fst).nodup_iff.1 orderly.numbers
    cases session? with
    | none => exact (List.nodup_cons.1 distinct).2
    | some _ => exact distinct
  have lt : id < s.self.nextSession.toNat :=
    orderly.below (id, session) (first.mem_iff.2 List.mem_cons_self)
  have runs' : ∀ entry ∈ (session?.map (id, ·)).toList,
      entry.1 < s.self.nextSession.toNat ∧ entry.2.id = entry.1 ∧
        entry.2.table.config = s.self.config ∧ Session.Run ⟨entry.2, registry, (), host⟩ := by
    intro entry mem
    obtain ⟨session', some, rfl⟩ := Option.map_eq_some_iff.1 (Option.mem_toList.1 mem)
    exact ⟨lt, runs session' some⟩
  obtain ⟨orderly', untouched⟩ := orderly.exchange { s.self with sessions } _ _ first last
    rfl rfl (Nat.le_refl _) whole numbers runs'
  refine ⟨orderly', Nat.le_refl _, fun entry mem other => ?_, fun entry mem other => .inl ?_⟩
  · rcases List.mem_append.1 (first.mem_iff.1 mem) with gone | stays
    · rw [List.mem_singleton.1 gone] at other
      exact absurd rfl other
    · exact ⟨last.mem_iff.2 (List.mem_append_right _ stays), untouched entry stays⟩
  · rcases List.mem_append.1 (last.mem_iff.1 mem) with now | stays
    · exact absurd (congrArg some (own entry now).symm) other
    · exact first.mem_iff.2 (List.mem_append_right _ stays)

theorem mem_putSession {r : Reactor} {session : Session} {entry : Nat × Session}
    (mem : entry ∈ (putSession id session r).sessions) :
    entry = (id, session) ∨ entry ∈ r.sessions ∧ entry.1 ≠ id := by
  obtain ⟨old, stays, rfl⟩ := List.mem_map.1 mem
  split
  · exact .inl rfl
  · next other => exact .inr ⟨stays, other⟩

/-- A session acts on its own, in the place of the one that it was. -/
theorem onSession_inv (act : Act Session Unit Unit) : Ensures (onSession id act) s fun _ t =>
    (∀ entry ∈ s.self.sessions, entry.1 ≠ id) ∧ t = s ∨
      ∃ session u, (id, session) ∈ s.self.sessions ∧
        act ⟨session, s.registry, (), s.host⟩ = .ok ((), u) ∧
        t = ⟨putSession id u.self s.self, u.registry, (), u.host⟩ := by
  simp only [onSession, ensures_bind, ensures_self]
  split
  · next absent =>
    refine (ensures_pure _).2 (.inl ⟨fun entry mem same => ?_, rfl⟩)
    have ne := List.lookup_eq_none_iff.1 absent entry mem
    simp [same] at ne
  · next session found =>
    simp only [ensures_bind, ensures_runOn, ensures_modifySelf]
    exact fun _ u performed => .inr ⟨session, u, mem_of_lookup found, performed, rfl⟩

/-- Only the session that is asked for acts, if it is there. -/
theorem ensures_onSession (operation : Session.Operation) (orderly : Orderly s) :
    Ensures (onSession id operation.perform) s fun _ t => Orderly t ∧
      Confined (some id) False s t ∧ ∀ entry ∈ t.self.sessions, entry.1 = id →
        ∃ session u, (id, session) ∈ s.self.sessions ∧ entry.2 = u.self ∧
          operation.perform ⟨session, s.registry, (), s.host⟩ = .ok ((), u) := by
  simp only [onSession, ensures_bind, ensures_self]
  split
  · next absent =>
    refine (ensures_pure _).2 ⟨orderly, .refl s, fun entry mem same => ?_⟩
    have ne := List.lookup_eq_none_iff.1 absent entry mem
    simp [same] at ne
  next session found =>
  simp only [ensures_bind, ensures_runOn, ensures_modifySelf]
  intro _ u performed
  obtain ⟨before, after, split, others⟩ := lookup_inv orderly.numbers found
  have mem := mem_of_lookup found
  have run : Session.Run ⟨session, s.registry, (), s.host⟩ := orderly.runs _ mem
  obtain ⟨same, exchange⟩ := run.exchange performed
  have joined : (putSession id u.self s.self).sessions =
      before ++ ((some u.self).map (id, ·)).toList ++ after := by
    rw [sessions_putSession split others]
    simp
  have acted : ∀ session' ∈ some u.self, session'.id = id ∧ session'.table.config = s.self.config ∧
      Session.Run ⟨session', u.registry, (), u.host⟩ := by
    rintro _ ⟨⟩
    exact ⟨same.id_eq.trans (orderly.named _ mem),
      same.config_eq.trans (orderly.configured _ mem), run.act performed⟩
  obtain ⟨orderly', confined⟩ := orderly.replace split joined (by simpa using exchange) acted
  refine ⟨orderly', confined, fun entry mem' number => ⟨session, u, mem, ?_, performed⟩⟩
  replace mem' : entry ∈ (putSession id u.self s.self).sessions := mem'
  rw [sessions_putSession split others] at mem'
  exact session_eq others mem' number

/-- A session that has ended is removed, and its socket is closed. -/
theorem ensures_removeIfClosed (orderly : Orderly s) :
    Ensures (removeIfClosed id) s fun _ t => Orderly t ∧ Confined (some id) False s t ∧
      ∀ entry ∈ t.self.sessions, entry.1 = id → entry.2.closed = false := by
  simp only [removeIfClosed, ensures_bind, ensures_self]
  split
  · next absent =>
    refine (ensures_pure _).2 ⟨orderly, .refl s, fun entry mem same => ?_⟩
    have ne := List.lookup_eq_none_iff.1 absent entry mem
    simp [same] at ne
  next session found =>
  obtain ⟨before, after, split, others⟩ := lookup_inv orderly.numbers found
  split
  · next closed =>
    simp only [ensures_bind, ensures_modifySelf, ensures_tell, ensures_self, ensures_note]
    have run : Session.Run ⟨session, s.registry, (), s.host⟩ :=
      orderly.runs _ (mem_of_lookup found)
    have empty : session.table.flows = [] := run.flows_of_closed closed
    -- All flows have ended with the session, whose own entry is gone as well.
    have single : session.holdings = [⟨session.socket, none⟩] := by
      simp [Session.holdings, closed, empty, FlowTable.holdings]
    have rest : s.self.sessions.filter (fun entry => entry.1 != id) =
        before ++ ((none : Option Session).map (id, ·)).toList ++ after := by
      obtain ⟨first, last⟩ := List.forall_mem_append.1 others
      have stays {part : List (Nat × Session)} (h : ∀ entry ∈ part, entry.1 ≠ id) :
          part.filter (fun entry => entry.1 != id) = part :=
        List.filter_eq_self.2 fun entry mem => bne_iff_ne.2 (h entry mem)
      rw [split, List.filter_append, List.filter_cons_of_neg (by simp), stays first, stays last]
      simp
    have exchange : Exchange s.registry s.host session.holdings s.registry
        (s.host.close session.socket) [] := by
      rw [single]
      exact .close _ _ _
    obtain ⟨removed, confined⟩ := orderly.replace split rest exchange (by simp)
    obtain ⟨noted, confined'⟩ := removed.note _
    refine ⟨noted, confined.trans confined', fun entry mem' number => ?_⟩
    replace mem' : entry ∈ s.self.sessions.filter fun entry => entry.1 != id := mem'
    simp [number] at mem'
  · next isOpen =>
    refine (ensures_pure _).2 ⟨orderly, .refl s, fun entry mem number => ?_⟩
    rw [session_eq others (split ▸ mem) number]
    simpa using isOpen

private theorem ensures_act (operation : Session.Operation) (orderly : Orderly s) (tidy : Tidy s) :
    Ensures (do onSession id operation.perform; removeIfClosed id) s fun _ t =>
      Orderly t ∧ Tidy t ∧ Confined (some id) False s t := by
  rw [ensures_bind]
  refine (ensures_onSession operation orderly).mono ?_
  rintro _ t ⟨orderly', confined, -⟩
  refine (ensures_removeIfClosed orderly').mono ?_
  rintro _ u ⟨orderly'', confined', removed⟩
  have both := confined.trans confined'
  refine ⟨orderly'', fun entry mem => ?_, both⟩
  by_cases own : entry.1 = id
  · exact removed entry mem own
  -- Another session is as it was before.
  · refine ((both.new entry mem fun same => own ?_).elim (tidy entry) fun new => new.1.elim)
    exact (Option.some.inj same).symm

/-- What the reactor has become by letting visitors in. -/
structure Admits (s t : Scene Reactor Unit) : Prop where
  orderly : Orderly t
  tidy : Tidy t
  confined : Confined none True s t

theorem Admits.note (h : Admits s t) (notice : Notice) :
    Admits s { t with host := t.host.record (.notice notice) } := by
  obtain ⟨noted, confined⟩ := h.orderly.note notice
  exact ⟨noted, h.tidy, h.confined.trans confined⟩

private theorem admits_start {socket : SocketId} {host : Host} {next : UInt32}
    (orderly : Orderly s) (tidy : Tidy s) (numbered : succ32 s.self.nextSession = .ok next)
    (visit : Exchange s.registry s.host [s.self.listening] s.registry host
      [⟨socket, none⟩, s.self.listening]) (opened : socket < host.nextSocket) :
    Ensures (Session.start s.self.nextSession.toNat socket s.self.config)
      ⟨{ s.self with nextSession := next }, s.registry, (), host⟩ fun result t =>
      Admits s { t with self := { t.self with
        sessions := t.self.sessions ++ result.toOption.toList.map (s.self.nextSession.toNat, ·) } } := by
  intro result t started
  obtain ⟨_, starts⟩ :=
    Session.ensures_start (Config.check_eq_ok_iff.1 orderly.checked) opened _ _ started
  obtain ⟨_, registry, ⟨⟩, host'⟩ := t
  obtain rfl := starts.self_eq
  have lt : s.self.nextSession.toNat < next.toNat := by
    rw [succ32_eq numbered]
    exact Nat.lt_succ_self _
  have entered : Exchange s.registry s.host (s.self.listening :: held []) registry host'
      (s.self.listening :: held (result.toOption.toList.map (s.self.nextSession.toNat, ·))) := by
    have exchange := visit.trans (starts.exchange.frame [s.self.listening])
    refine exchange.perm_right (List.perm_append_comm.trans ?_)
    cases result <;> simp [held, Except.toOption]
  have runs : ∀ entry ∈ result.toOption.toList.map (s.self.nextSession.toNat, ·),
      entry.1 < next.toNat ∧ entry.2.id = entry.1 ∧
        entry.2.table.config = s.self.config ∧ Session.Run ⟨entry.2, registry, (), host'⟩ := by
    cases result with
    | error failure => exact List.forall_mem_nil _
    | ok session =>
      refine List.forall_mem_singleton.2 ⟨lt, (starts.fresh rfl).1, ?_, ?_⟩
      · exact congrArg FlowTable.config (Session.table_of_start started)
      · exact .start orderly.checked opened started
  have fresh : ∀ entry ∈ result.toOption.toList.map (s.self.nextSession.toNat, ·),
      entry.2.closed = false := by
    cases result with
    | error failure => exact List.forall_mem_nil _
    | ok session => exact List.forall_mem_singleton.2 (starts.fresh rfl).2.2.1
  have numbers : ((result.toOption.toList.map (s.self.nextSession.toNat, ·) ++ s.self.sessions).map
      Prod.fst).Nodup := by
    cases result with
    | error failure => exact orderly.numbers
    | ok session =>
      -- The numbers of all sessions are below that of the next one.
      refine List.nodup_cons.2 ⟨fun mem => ?_, orderly.numbers⟩
      obtain ⟨entry, he, same⟩ := List.mem_map.1 mem
      exact Nat.ne_of_lt (orderly.below entry he) same
  obtain ⟨orderly', untouched⟩ := orderly.exchange { s.self with
      nextSession := next
      sessions := s.self.sessions ++ result.toOption.toList.map (s.self.nextSession.toNat, ·) }
    [] _ (.refl _) List.perm_append_comm rfl rfl (Nat.le_of_lt lt) entered numbers runs
  refine ⟨orderly', List.forall_mem_append.2 ⟨tidy, fresh⟩, ⟨Nat.le_of_lt lt, ?_, ?_⟩⟩
  · exact fun entry mem _ => ⟨List.mem_append_left _ mem, untouched entry mem⟩
  · intro entry mem _
    rcases List.mem_append.1 mem with mem | new
    · exact .inl mem
    · obtain ⟨_, -, rfl⟩ := List.mem_map.1 new
      exact .inr ⟨trivial, Nat.le_refl _⟩

/-- A tunnel is let in, or turned away, while all sessions go on. -/
theorem admits_acceptRound (orderly : Orderly s) (tidy : Tidy s) :
    Ensures (acceptRound ()) s fun _ t => Admits s t := by
  simp only [acceptRound, ensures_bind, ensures_self, ensures_call]
  have created := Host.creates_accept s.host s.self.listener
  have called : Exchange s.registry s.host [s.self.listening] s.registry
      (s.host.accept s.self.listener).2 [s.self.listening] :=
    .of_keepTo created.adds (Event.keepTo_singleton rfl rfl rfl)
  have failed : Admits s { s with host := (s.host.accept s.self.listener).2 } := by
    obtain ⟨orderly', untouched⟩ := orderly.exchange s.self [] [] (.refl _) (.refl _) rfl rfl
      (Nat.le_refl _) called orderly.numbers (List.forall_mem_nil _)
    exact ⟨orderly', tidy, Nat.le_refl _, fun entry mem _ => ⟨mem, untouched entry mem⟩,
      fun _ mem _ => .inl mem⟩
  split
  · next socket peer accepted =>
    rw [accepted] at created
    obtain ⟨rfl, new⟩ := created.created socket rfl
    generalize (s.host.accept s.self.listener).2 = host at *
    have visit := called.created created.adds (by simp [Event.closes?]) new
    -- Whether the socket refuses the option makes no difference but for a notice.
    have visited {host' : Host} {outcome : Outcome} {next : UInt32}
        (set : host.After [.setNoDelay s.host.nextSocket outcome] host')
        (numbered : succ32 s.self.nextSession = .ok next) :
        Ensures (Session.start s.self.nextSession.toNat s.host.nextSocket s.self.config)
          ⟨{ s.self with nextSession := next }, s.registry, (), host'⟩ fun result t =>
          Admits s { t with self := { t.self with
            sessions := t.self.sessions ++ result.toOption.toList.map (s.self.nextSession.toNat, ·) } } := by
      have own : Exchange s.registry host [⟨s.host.nextSocket, none⟩] s.registry host'
          [⟨s.host.nextSocket, none⟩] := .of_keepTo set.adds (Event.keepTo_singleton rfl rfl rfl)
      exact admits_start orderly tidy numbered (visit.trans (own.frame [s.self.listening]))
        (Nat.lt_of_lt_of_le new set.adds.nextSocket_le)
    have set := (Host.After.refl host).setNoDelay s.host.nextSocket
    simp only [ensures_bind, ensures_call]
    split
    all_goals
      simp only [ensures_bind, ensures_liftM, ensures_note, ensures_setSelf]
      intro next numbered
      refine (visited (by first | exact (set.note _).note _ | exact set.note _) numbered).mono ?_
      rintro (failure | session) t admits
      · simp only [ensures_bind, ensures_note, ensures_pure]
        have rejected : Admits s t := by simpa [Except.toOption] using admits
        exact rejected.note _
      · simp only [ensures_bind, ensures_modifySelf, ensures_pure]
        exact admits
  · exact (ensures_pure _).2 failed
  · exact (ensures_pure _).2 failed
  · simp only [ensures_bind, ensures_note, ensures_pure]
    exact failed.note _

private theorem admits_acceptAll (orderly : Orderly s) (tidy : Tidy s) :
    Ensures acceptAll s fun _ t => Admits s t := by
  simp only [acceptAll, ensures_bind, ensures_get]
  refine ensures_iterate (I := fun _ t => Admits s t) ?_ ⟨orderly, tidy, .refl s⟩
  rintro - t admits
  refine (admits_acceptRound admits.orderly admits.tidy).mono ?_
  rintro round u next
  have all : Admits s u := ⟨next.orderly, next.tidy, admits.confined.trans next.confined⟩
  cases round <;> exact all

/-- A signal lets visitors in, or it concerns one session, or nobody. -/
theorem ensures_dispatch {token : Nat} {readiness : Readiness} (orderly : Orderly s) (tidy : Tidy s) :
    Ensures (dispatch token readiness) s fun _ t => Orderly t ∧ Tidy t ∧
      Confined ((s.registry.get? token).bind Handler.session?)
        (s.registry.get? token = some .listener) s t := by
  simp only [dispatch, ensures_bind, ensures_get]
  split
  · refine (ensures_note _).2 ?_
    obtain ⟨noted, confined⟩ := orderly.note (.staleToken token)
    exact ⟨noted, tidy, confined⟩
  · next listener =>
    refine (admits_acceptAll orderly tidy).mono fun _ t admits => ⟨admits.orderly, admits.tidy, ?_⟩
    rw [listener]
    exact admits.confined.imp fun _ => rfl
  · next id session =>
    refine (ensures_act (.ready readiness) orderly tidy).mono ?_
    rintro _ t ⟨orderly', tidy', confined⟩
    rw [session]
    exact ⟨orderly', tidy', confined.imp False.elim⟩
  · next id key flow =>
    refine (ensures_act (.flowReady key readiness) orderly tidy).mono ?_
    rintro _ t ⟨orderly', tidy', confined⟩
    rw [flow]
    exact ⟨orderly', tidy', confined.imp False.elim⟩

private theorem ensures_sweepSessions {now : Nat} {ids : List Nat} (orderly : Orderly s)
    (tidy : Tidy s) : Ensures (sweepSessions now ids) s fun _ t => Orderly t ∧ Tidy t := by
  induction ids generalizing s with
  | nil => exact (ensures_pure _).2 ⟨orderly, tidy⟩
  | cons id ids ih =>
    rw [sweepSessions, ensures_bind]
    refine (ensures_onSession (.sweep now) orderly).mono ?_
    rintro _ t ⟨orderly', confined, acted⟩
    refine ih orderly' fun entry mem => ?_
    by_cases own : entry.1 = id
    · obtain ⟨session, u, before, same, performed⟩ := acted entry mem own
      rw [same, Session.ensures_sweep_closed _ _ performed]
      exact tidy _ before
    · refine ((confined.new entry mem fun same => own ?_).elim (tidy entry) fun new => new.1.elim)
      exact (Option.some.inj same).symm

theorem ensures_sweepIfDue (orderly : Orderly s) (tidy : Tidy s) :
    Ensures sweepIfDue s fun _ t => Orderly t ∧ Tidy t := by
  simp only [sweepIfDue, ensures_bind, ensures_now, ensures_self]
  split
  · simp only [ensures_bind, ensures_note, ensures_modifySelf]
    obtain ⟨noted, -⟩ := orderly.note (.sweeping s.self.sessions.length)
    refine (ensures_sweepSessions noted tidy).mono ?_
    rintro _ t ⟨orderly', tidy'⟩
    exact ⟨{ orderly' with }, tidy'⟩
  · exact (ensures_pure _).2 ⟨orderly, tidy⟩

theorem ensures_waitForSignals {timeout : Option Nat} (orderly : Orderly s) (tidy : Tidy s) :
    Ensures (waitForSignals timeout) s fun _ t => Orderly t ∧ Tidy t := by
  have waited : s.host.Adds [.poll timeout] (s.host.poll timeout).2 := ⟨rfl, Nat.le_refl _⟩
  obtain ⟨orderly', -⟩ := orderly.adds waited (by simp [Event.socket?])
  simp only [waitForSignals, ensures_bind, ensures_call]
  split <;> exact (ensures_pure _).2 ⟨orderly', tidy⟩

private theorem exchange_call {s t : Scene Unit Unit} {socket : SocketId} {e : Event}
    {f : Host → Outcome × Host} {fail : ErrorKind → ReactorError}
    {next : Act Unit Unit (Except ReactorError Unit)}
    (before : Exchange s.registry s.host [⟨socket, none⟩] t.registry t.host [⟨socket, none⟩])
    (called : t.host.Adds [e] (f t.host).2) (own : Event.KeepTo [e] socket none)
    (rest : ∀ u : Scene Unit Unit,
      Exchange s.registry s.host [⟨socket, none⟩] u.registry u.host [⟨socket, none⟩] →
        Ensures next u fun _ v =>
          Exchange s.registry s.host [⟨socket, none⟩] v.registry v.host [⟨socket, none⟩]) :
    Ensures (do match ← Act.call f with
      | some kind => return .error (fail kind)
      | none => next) t fun _ v =>
        Exchange s.registry s.host [⟨socket, none⟩] v.registry v.host [⟨socket, none⟩] := by
  have after := before.trans (.of_keepTo called own)
  simp only [ensures_bind, ensures_call]
  split
  · exact (ensures_pure _).2 after
  · exact rest _ after

private theorem exchange_prepareListener {s : Scene Unit Unit} {socket : SocketId}
    {endpoint : Endpoint} : Ensures (prepareListener socket endpoint) s fun _ t =>
      Exchange s.registry s.host [⟨socket, none⟩] t.registry t.host [⟨socket, none⟩] := by
  have added {h h' : Host} {e : Event} (calls_eq : h'.calls = e :: h.calls)
      (same : h'.nextSocket = h.nextSocket) : h.Adds [e] h' := ⟨calls_eq, Nat.le_of_eq same.symm⟩
  refine exchange_call (.refl _ _ _) (added rfl rfl) (Event.keepTo_singleton rfl rfl rfl) ?_
  intro t reused
  refine exchange_call reused (added rfl rfl) (Event.keepTo_singleton rfl rfl rfl) ?_
  intro t bound
  refine exchange_call bound (added rfl rfl) (Event.keepTo_singleton rfl rfl rfl) ?_
  intro t listening
  refine exchange_call listening (added rfl rfl) (Event.keepTo_singleton rfl rfl rfl) ?_
  intro t unblocked
  refine exchange_call unblocked (added rfl rfl) ?_ fun u done => (ensures_pure _).2 done
  simp [Event.KeepTo, Event.closes?, Event.socket?, Event.token?]

theorem ensures_start {config : Config} {host : Host} (unused : host.calls = []) :
    Ensures (start config) ⟨(), {}, (), host⟩ fun result t => ∀ r, result = .ok r →
      Orderly ⟨r, t.registry, (), t.host⟩ ∧ r.sessions = [] := by
  unfold start
  split
  · exact (ensures_pure _).2 (by simp)
  next checked =>
  simp only [ensures_bind, ensures_call]
  obtain ⟨adds, created⟩ := Host.creates_openListener host
  split
  · exact (ensures_pure _).2 (by simp)
  next listener opened =>
  obtain ⟨rfl, new⟩ := created listener opened
  have owned : Exchange {} host [] {} host.openListener.2 [⟨host.nextSocket, none⟩] :=
    .created (.of_adds adds (by simp [Event.socket?])) adds (by simp [Event.closes?]) new
  rw [ensures_bind]
  refine exchange_prepareListener.mono ?_
  rintro (error | _) t prepared
  · simp only [ensures_bind, ensures_tell, ensures_pure]
    simp
  dsimp only
  rw [ensures_bind]
  apply Registration.ensures_enter
  · intro host' called
    simp only [ensures_bind, ensures_now, ensures_pure]
    rintro r ⟨⟩
    have entered : Exchange {} host [] (t.registry.insert .listener).2 host'
        [⟨host.nextSocket, some (t.registry.nextToken, .listener)⟩] :=
      owned.trans (prepared.trans (.entered called.adds (Event.keepTo_register _ _ _ _)))
    obtain ⟨kept, -⟩ := entered [] (kept_nil unused)
    exact ⟨⟨checked, kept, List.nodup_nil, List.forall_mem_nil _, List.forall_mem_nil _,
      List.forall_mem_nil _, List.forall_mem_nil _⟩, rfl⟩
  · intro kind host' called
    simp only [ensures_bind, ensures_tell, ensures_pure]
    simp

end Reactor

end TunnelRelay
