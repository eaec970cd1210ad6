import TunnelRelay.Proofs.Reactor.Progress

/-!
# The table of handlers is exact

A run starts a reactor and lets it wait for signals, take them in and sweep, in any order, while
the world around it does as it likes. Between these steps the table has an entry for the listener,
for each session and for each flow, and no others. Signals of sockets that have been closed concern
nobody, and every other signal concerns one session at most.
-/

namespace TunnelRelay

open Act

theorem Registry.get?_eq_some_iff {r : Registry} {token : Nat} {handler : Handler}
    (tokens : (r.handlers.map Prod.fst).Nodup) :
    r.get? token = some handler ↔ (token, handler) ∈ r.handlers := by
  unfold Registry.get?
  generalize r.handlers = handlers at tokens ⊢
  induction handlers with
  | nil => simp
  | cons entry rest ih =>
    obtain ⟨first, _⟩ := entry
    rw [List.map_cons, List.nodup_cons] at tokens
    rw [List.lookup_cons, List.mem_cons]
    by_cases same : token = first
    · subst same
      have absent : (token, handler) ∉ rest := fun mem => tokens.1 (List.mem_map.2 ⟨_, mem, rfl⟩)
      simp [absent, eq_comm]
    · have differs : (token == first) = false := beq_false_of_ne same
      simpa [same, differs] using ih tokens.2

namespace Reactor

inductive Operation where
  | wait (timeout : Option Nat)
  | dispatch (token : Nat) (readiness : Readiness)
  | sweep

def Operation.perform : Operation → Act Reactor Unit Unit
  | wait timeout => do let _ ← waitForSignals timeout
  | dispatch token readiness => Reactor.dispatch token readiness
  | sweep => sweepIfDue

/-- The scenes that a reactor can get into. -/
inductive Run : Scene Reactor Unit → Prop where
  | start {config : Config} {host : Host} {r : Reactor} {t : Scene Unit Unit}
      (unused : host.calls = [])
      (started : Reactor.start config ⟨(), {}, (), host⟩ = .ok (.ok r, t)) :
      Run ⟨r, t.registry, (), t.host⟩
  | world {s : Scene Reactor Unit} (run : Run s) {host : Host} (idle : s.host.Adds [] host) :
      Run { s with host }
  | act {s t : Scene Reactor Unit} (run : Run s) (operation : Operation)
      (performed : operation.perform s = .ok ((), t)) : Run t

variable {s t : Scene Reactor Unit}

theorem Operation.keeps {operation : Operation} (orderly : Orderly s) (tidy : Tidy s) :
    Ensures operation.perform s fun _ t => Orderly t ∧ Tidy t := by
  cases operation with
  | wait timeout =>
    simp only [perform, ensures_bind, ensures_pure]
    exact ensures_waitForSignals orderly tidy
  | dispatch token readiness =>
    exact (ensures_dispatch orderly tidy).mono fun _ _ h => ⟨h.1, h.2.1⟩
  | sweep => exact ensures_sweepIfDue orderly tidy

theorem Operation.ends (operation : Operation) (orderly : Orderly s)
    (affordable : s.self.config.Affordable) : (∃ t, operation.perform s = .ok ((), t)) ∨
      operation.perform s = .error .overflow ∧ Crowded s := by
  cases operation with
  | wait timeout =>
    have waits : Achieves (Operation.wait timeout).perform s fun _ _ => True := by
      simp only [perform, waitForSignals, achieves_bind, achieves_call, achieves_pure]
      split <;> exact (achieves_pure _).2 trivial
    exact .inl waits.ends
  | dispatch token readiness => exact dispatch_ends token readiness orderly affordable
  | sweep => exact .inl (achieves_sweepIfDue orderly affordable).ends

theorem Run.orderly_tidy (run : Run s) : Orderly s ∧ Tidy s := by
  induction run with
  | start unused started =>
    obtain ⟨orderly, empty⟩ := ensures_start unused _ _ started _ rfl
    refine ⟨orderly, fun entry mem => ?_⟩
    simp [empty] at mem
  | world _ idle ih => exact ⟨(ih.1.adds idle (List.forall_mem_nil _)).1, ih.2⟩
  | act _ _ performed ih => exact Operation.keeps ih.1 ih.2 _ _ performed

/-- Each session of a reactor runs as it does on its own. -/
theorem Run.session_run (run : Run s) {entry : Nat × Session} (mem : entry ∈ s.self.sessions) :
    Session.Run ⟨entry.2, s.registry, (), s.host⟩ := run.orderly_tidy.1.runs entry mem

theorem Run.ensures_dispatchAll {signals : List (Nat × Signal)} (run : Run s) :
    Ensures (dispatchAll signals) s fun _ t => Run t := by
  induction signals generalizing s with
  | nil => exact (ensures_pure _).2 run
  | cons signal rest ih =>
    obtain ⟨token, signal⟩ := signal
    rw [dispatchAll, ensures_bind]
    exact fun _ t performed => ih (run.act (.dispatch token (.ofSignal signal)) performed)

/-- A wait and all that follows from it is part of a run. -/
theorem Run.ensures_once {maxWait : Option Nat} (run : Run s) :
    Ensures (once maxWait) s fun _ t => Run t := by
  have waits (timeout : Option Nat) : Ensures (waitForSignals timeout) s fun _ t => Run t := by
    intro result t waited
    refine run.act (.wait timeout) ?_
    rw [Operation.perform, bind_apply, waited]
    rfl
  simp only [once, ensures_bind, ensures_self, ensures_now]
  refine (waits _).mono ?_
  rintro (kind | signals) t run'
  · simp only [ensures_bind, ensures_note, ensures_pure]
    exact run'.world (Host.Adds.note (.refl _) _)
  · simp only [ensures_bind, ensures_pure]
    refine run'.ensures_dispatchAll.mono fun _ u run'' => ?_
    exact fun _ v swept => run''.act .sweep swept

/-- All that a reactor does is a run. -/
theorem Run.ensures_run (run : Run s) : Ensures Reactor.run s fun _ t => Run t := by
  simp only [Reactor.run, ensures_bind, ensures_get, ensures_note]
  refine ensures_iterate (I := fun _ t => Run t) ?_ (run.world (Host.Adds.note (.refl _) _))
  rintro - t run'
  rw [runRound, ensures_bind]
  refine run'.ensures_once.mono ?_
  rintro (error | _) u run'' <;> exact (ensures_pure _).2 run''

def sessionEntries (id : Nat) (session : Session) : List (Nat × Handler) :=
  (session.registration.token, .session id) ::
    session.table.flows.map fun f => (f.registration.token, .flow id f.key)

/-- The entries of the listener, all sessions and all flows. -/
def entries (r : Reactor) : List (Nat × Handler) :=
  (r.registration.token, .listener) :: r.sessions.flatMap fun entry => sessionEntries entry.1 entry.2

/-- The table has the entries of what is there and no others. -/
structure Exact (s : Scene Reactor Unit) : Prop where
  entries : s.registry.handlers.Perm s.self.entries
  tokens : (s.self.entries.map Prod.fst).Nodup
  below : ∀ entry ∈ s.self.entries, entry.1 < s.registry.nextToken
  numbers : (s.self.sessions.map Prod.fst).Nodup
  earlier : ∀ entry ∈ s.self.sessions, entry.1 < s.self.nextSession.toNat
  sessions : ∀ entry ∈ s.self.sessions, entry.2.closed = false ∧ entry.2.id = entry.1
  flows : ∀ entry ∈ s.self.sessions, ∀ f ∈ entry.2.table.flows, f.isClosed = false
  keys : ∀ entry ∈ s.self.sessions, (entry.2.table.flows.map Flow.key).Nodup

private theorem entries_holdings {id : Nat} {session : Session} (isOpen : session.closed = false)
    (named : session.id = id) (live : ∀ f ∈ session.table.flows, f.isClosed = false) :
    session.holdings.filterMap Holding.row? = sessionEntries id session := by
  subst named
  have flows : (FlowTable.holdings session.id session.table.flows).filterMap Holding.row? =
      session.table.flows.map fun f => (f.registration.token, .flow session.id f.key) := by
    rw [FlowTable.holdings, List.filterMap_map, ← List.filterMap_eq_map]
    refine List.filterMap_congr fun f mem => ?_
    simp [Flow.holding, live f mem]
  rw [Session.holdings_of_open isOpen, List.filterMap_append, flows]
  rfl

theorem Run.table_exact (run : Run s) : Exact s := by
  obtain ⟨orderly, tidy⟩ := run.orderly_tidy
  have sound : ∀ entry ∈ s.self.sessions, FlowTable.Sound entry.2.socket entry.2.outbox.waiting
      entry.2.table.flows := fun entry mem => (orderly.runs entry mem).coherent_rests.1.sound
  have flows : ∀ entry ∈ s.self.sessions, ∀ f ∈ entry.2.table.flows, f.isClosed = false :=
    fun entry mem f hf => ((sound entry mem).live f hf).isOpen
  -- Nobody holds a socket without an entry: all sessions are open, and so are their flows.
  have entries : (s.self.listening :: held s.self.sessions).filterMap Holding.row? =
      s.self.entries := by
    have all : (held s.self.sessions).filterMap Holding.row? =
        s.self.sessions.flatMap fun entry => sessionEntries entry.1 entry.2 := by
      rw [held, List.filterMap_flatMap]
      refine List.flatMap_congr fun entry mem => ?_
      exact entries_holdings (tidy entry mem) (orderly.named entry mem) (flows entry mem)
    simp [listening, Reactor.entries, all]
  have table := orderly.kept.entries
  rw [entries] at table
  exact {
    entries := table
    tokens := (table.map Prod.fst).nodup_iff.1 orderly.kept.tokens
    below := fun entry mem => orderly.kept.below entry (table.mem_iff.2 mem)
    numbers := orderly.numbers
    earlier := orderly.below
    sessions := fun entry mem => ⟨tidy entry mem, orderly.named entry mem⟩
    flows := flows
    keys := fun entry mem => (sound entry mem).distinct }

private theorem dispatch_of_absent {token : Nat} {readiness : Readiness}
    (absent : s.registry.get? token = none) : dispatch token readiness s =
      .ok ((), { s with host := s.host.record (.notice (.staleToken token)) }) := by
  simp only [dispatch, bind_apply, get_apply, ok_bind, absent]
  rfl

private theorem Orderly.get?_of_closed (orderly : Orderly s) {call : Event} {socket : SocketId}
    {token : Nat} (mem : call ∈ s.host.calls) (called : call.socket? = some socket)
    (told : call.token? = some token) (closed : .close socket ∈ s.host.calls) :
    s.registry.get? token = none := by
  refine Option.eq_none_iff_forall_ne_some.2 fun handler found => ?_
  have entry := (Registry.get?_eq_some_iff orderly.kept.tokens).1 found
  -- Whoever has the entry holds the very socket that the poller was told of, and it is open.
  obtain ⟨x, held, own⟩ := List.mem_filterMap.1 (orderly.kept.entries.mem_iff.1 entry)
  have same := called.symm.trans (orderly.kept.told_eq x held token handler own call mem told)
  exact (orderly.kept.opened x held).2 (Option.some.inj same ▸ closed)

/-- Between any two steps of a reactor its table is exact. A signal with a token that was given to a
socket closed by now, even if a flow with the same key has been opened since, changes nothing. Any
other signal changes no session but the one that its token stands for, and no others come or go but
those that the listener lets in. Session numbers have 32 bits: a relay whose buffers a machine can
provide takes every step that it is asked to, but stops at a fault where more tunnels wait than numbers
are left, so that none is given twice. -/
theorem Run.registrations_exact (run : Run s) : Exact s ∧
    (∀ call ∈ s.host.calls, ∀ socket token, call.socket? = some socket →
      call.token? = some token → .close socket ∈ s.host.calls → ∀ readiness,
        dispatch token readiness s =
          .ok ((), { s with host := s.host.record (.notice (.staleToken token)) })) ∧
    (∀ token readiness t, dispatch token readiness s = .ok ((), t) →
      Confined ((s.registry.get? token).bind Handler.session?)
        (s.registry.get? token = some .listener) s t) ∧
    (s.self.config.Affordable → ∀ operation : Operation, (∃ t, operation.perform s = .ok ((), t)) ∨
      operation.perform s = .error .overflow ∧ Crowded s) := by
  obtain ⟨orderly, tidy⟩ := run.orderly_tidy
  refine ⟨run.table_exact, ?_, fun token readiness t dispatched => ?_, fun affordable operation =>
    operation.ends orderly affordable⟩
  · intro call mem socket token called told closed readiness
    exact dispatch_of_absent (orderly.get?_of_closed mem called told closed)
  · exact (ensures_dispatch orderly tidy _ _ dispatched).2.2

theorem Run.ensures_forM {operations : List Operation} (run : Run s) :
    Ensures (forM operations Operation.perform) s fun _ t => Run t := by
  induction operations generalizing s with
  | nil => exact (ensures_pure _).2 run
  | cons operation rest ih =>
    rw [List.forM_cons, ensures_bind]
    exact fun _ t performed => ih (run.act operation performed)

/-- Starts a reactor and lets it perform operations. -/
def enact (config : Config) (host : Host) (operations : List Operation) :
    Checked (Option (Scene Reactor Unit)) := do
  match ← Reactor.start config ⟨(), {}, (), host⟩ with
  | (.error _, _) => return none
  | (.ok r, s) =>
    let all : Act Reactor Unit Unit := forM operations Operation.perform
    let (_, t) ← all ⟨r, s.registry, (), s.host⟩
    return some t

def enacts (config : Config) (host : Host) (operations : List Operation)
    (p : Scene Reactor Unit → Bool) : Bool :=
  match enact config host operations with
  | .ok (some t) => p t
  | _ => false

theorem exists_run_of_enacts {config : Config} {host : Host} {operations : List Operation}
    {p : Scene Reactor Unit → Bool} (unused : host.calls = [])
    (h : enacts config host operations p = true) : ∃ t, Run t ∧ p t = true := by
  unfold enacts at h
  split at h
  · next t enacted =>
    simp only [enact, checked_bind_eq_ok] at enacted
    obtain ⟨⟨result, s⟩, started, enacted⟩ := enacted
    split at enacted
    · cases enacted
    · next r s' same =>
      cases same
      simp only [checked_bind_eq_ok] at enacted
      obtain ⟨⟨_, t'⟩, performed, enacted⟩ := enacted
      cases enacted
      exact ⟨_, (Run.start unused started).ensures_forM _ _ performed, h⟩
  · cases h

-- A device asks for a connection, breaks it off and asks for it again.
private def reopened : Host where
  sockets := [(0, { visitors := [.ok ⟨0x0a000001, 0x8000⟩] }),
    (1, { arrivals := [.data (TcpFlow.devicePacket .syn 0x110 0 [] ++
      TcpFlow.devicePacket .rst 0x111 0 [] ++ TcpFlow.devicePacket .syn 0x220 0 [])] })]

theorem registrations_exact_reopened : ∃ s, Run s ∧ s.registry.handlers = [(0, .listener),
      (1, .session 1), (3, .flow 1 ⟨.tcp, ⟨0x0a000002, 0xa028⟩, ⟨0x5db8d822, 80⟩⟩)] ∧ Exact s ∧
    dispatch 2 { readable := true } s =
      .ok ((), { s with host := s.host.record (.notice (.staleToken 2)) }) ∧
    ∀ operation : Operation, ∃ t, operation.perform s = .ok ((), t) := by
  have enacted : enacts {} reopened
      [.dispatch 0 { readable := true }, .dispatch 1 { readable := true }] (fun s =>
        s.registry.handlers == [(0, .listener), (1, .session 1),
          (3, .flow 1 ⟨.tcp, ⟨0x0a000002, 0xa028⟩, ⟨0x5db8d822, 80⟩⟩)] &&
        (s.host.calls.any fun call => call.socket? == some 2 && call.token? == some 2) &&
        (s.host.calls.any fun call => call.closes? == some 2) && s.self.config == {} &&
        s.self.nextSession.toNat + (s.host.socket s.self.listener).visitors.length == 2) = true := by
    decide +kernel
  obtain ⟨s, run, ends⟩ := exists_run_of_enacts rfl enacted
  simp only [Bool.and_eq_true, beq_iff_eq, List.any_eq_true] at ends
  obtain ⟨⟨⟨⟨table, call, mem, called, told⟩, last, mem', closes⟩, config⟩, numbers⟩ := ends
  obtain rfl := Event.eq_close closes
  obtain ⟨exact', stale, -, goes⟩ := run.registrations_exact
  have affordable : s.self.config.Affordable := config ▸ ⟨by decide, by decide, by decide⟩
  refine ⟨s, run, table, exact', stale call mem 2 2 called told mem' _, fun operation => ?_⟩
  refine (goes affordable operation).resolve_right fun ⟨_, crowded⟩ => ?_
  rw [Crowded, numbers] at crowded
  exact absurd crowded (by decide)

end Reactor

end TunnelRelay
