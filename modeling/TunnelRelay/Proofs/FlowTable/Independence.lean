import TunnelRelay.Proofs.Flow.Tcp.Run
import TunnelRelay.Proofs.Flow.Udp.Run
import TunnelRelay.Proofs.FlowTable

/-!
# The flows of a table are independent

An operation of a table is about one key. The flow of that key acts, or is opened, or is missing; all
other flows stay exactly as they are, with their sockets and their entries among the handlers, though
their order may change. What cannot be routed or opened leaves no trace.
-/

namespace TunnelRelay

open Act

theorem FlowKey.ofPacket_eq_none_iff {packet : Packet} :
    FlowKey.ofPacket packet = .ok none ↔ packet.isValid = false := by
  unfold ofPacket Packet.transportHeader Packet.isValid
  split
  · next invalid =>
    rw [invalid]
    exact iff_of_true rfl rfl
  · next valid =>
    rw [valid]
    refine iff_of_false (fun none => ?_) (by simp)
    simp only [checked_bind_eq_ok, checked_map_eq_ok] at none
    obtain ⟨_, ⟨_, -, _, -, _, -, rfl⟩, none⟩ := none
    simp at none

theorem Registry.handlers_erase_insert {r : Registry}
    (below : ∀ entry ∈ r.handlers, entry.1 < r.nextToken) (handler : Handler) :
    ((r.insert handler).2.erase r.nextToken).handlers = r.handlers := by
  have others : ∀ entry ∈ r.handlers, (entry.1 != r.nextToken) = true :=
    fun entry mem => by simpa using Nat.ne_of_lt (below entry mem)
  simp [insert, erase, List.filter_eq_self.2 others]

namespace Flow

variable {α σ : Type} {s : Scene α σ} {session : Nat} {key : FlowKey} {request : Packet}
  {config : Config}

/-- A flow that cannot be opened has no entry among the handlers. -/
theorem handlers_of_refused (below : ∀ entry ∈ s.registry.handlers, entry.1 < s.registry.nextToken) :
    Ensures (start session key request config) s fun result t =>
      ∀ failure, result = .error failure → t.registry.handlers = s.registry.handlers := by
  apply ensures_attempt
  · rintro failure calls registry host - (rfl | ⟨handler, rfl⟩) _ -
    · rfl
    · exact Registry.handlers_erase_insert below handler
  · rintro f calls registry host - - failure ⟨⟩

end Flow

namespace FlowTable

inductive Operation where
  | send (packet : Packet)
  | ready (key : FlowKey) (readiness : Readiness)
  | pull (key : FlowKey)
  | sweep (now : Nat)
  | clear

/-- The key that an operation is about: for a packet, its own. -/
def Operation.key? : Operation → Option FlowKey
  | send packet => keyOf? packet
  | ready key _ => some key
  | pull key => some key
  | sweep _ => none
  | clear => none

section

variable {σ : Type} [Outlet σ]

def Operation.perform : Operation → Act FlowTable σ Unit
  | send packet => FlowTable.send packet
  | ready key readiness => onReady key readiness
  | pull key => FlowTable.pull key
  | sweep now => FlowTable.sweep now
  | clear => FlowTable.clear

def Operation.act : Operation → Act Flow σ Unit
  | send packet => Flow.receive packet
  | ready _ readiness => Flow.onReady readiness
  | pull _ => Flow.pull
  | sweep _ => return ()
  | clear => return ()

/-- The scenes that a table can get into. Between its operations the rest of the relay does what it
likes, as long as it keeps to sockets and entries of its own. -/
inductive Run : Scene FlowTable σ → Prop where
  | start {session : Nat} {config : Config} {registry : Registry} {out : σ} {host : Host}
      {others : List Holding} (kept : Kept registry host others) :
      Run ⟨{ session, config }, registry, out, host⟩
  | world {s : Scene FlowTable σ} (run : Run s) {registry : Registry} {out : σ} {host : Host}
      {others : List Holding}
      (kept : Kept registry host (holdings s.self.session s.self.flows ++ others)) :
      Run { s with registry, out, host }
  | act {s t : Scene FlowTable σ} (run : Run s) {operation : Operation}
      (performed : operation.perform s = .ok ((), t)) : Run t

end

variable {σ : Type} {s t u : Scene FlowTable σ} {f : Flow} {key : FlowKey}
  {rest : List Flow} {calls : List Event}

/-- What holds of a table between its operations. -/
structure Standing (s : Scene FlowTable σ) : Prop where
  distinct : (s.self.flows.map Flow.key).Nodup
  isOpen : ∀ f ∈ s.self.flows, f.isClosed = false
  consistent : ∀ f ∈ s.self.flows, f.Consistent
  kept : ∃ others, Kept s.registry s.host (holdings s.self.session s.self.flows ++ others)

/-- The flows of all other keys are as they were, and so are their sockets and entries. -/
structure Frames (key : FlowKey) (s t : Scene FlowTable σ) : Prop where
  session_eq : t.self.session = s.self.session
  config_eq : t.self.config = s.self.config
  others : (t.self.flows.filter fun f => f.key ≠ key).Perm
    (s.self.flows.filter fun f => f.key ≠ key)
  entries : ∀ f ∈ s.self.flows, f.key ≠ key →
    (f.registration.token, .flow s.self.session f.key) ∈ t.registry.handlers
  aside : ∀ f ∈ s.self.flows, f.key ≠ key → Host.Aside f.socket s.host t.host

/-- After the flow of a key has acted, the table has it as it has become, unless it has ended. Its
socket is closed in this case, and nothing else is done. -/
structure Takes (key : FlowKey) (u : Scene Flow σ) (t : Scene FlowTable σ) : Prop where
  flow_iff (f : Flow) : f ∈ t.self.flows ∧ f.key = key ↔ u.self.isClosed = false ∧ f = u.self
  registry_eq : t.registry = u.registry
  out_eq : t.out = u.out
  adds : u.host.Adds (if u.self.isClosed then [.close u.self.socket] else []) t.host

/-- Neither the flows nor the handlers nor the way out have changed. -/
structure Unchanged (s t : Scene FlowTable σ) : Prop where
  self_eq : t.self = s.self
  handlers_eq : t.registry.handlers = s.registry.handlers
  out_eq : t.out = s.out

/-- What an operation on a key comes to. -/
inductive Serves [Outlet σ] (operation : Operation) (key : FlowKey) (s t : Scene FlowTable σ) :
    Prop where
  | acted {f : Flow} {u : Scene Flow σ} (mem : f ∈ s.self.flows) (key_eq : f.key = key)
      (ran : operation.act { s with self := f } = .ok ((), u)) (takes : Takes key u t)
  | opened {packet : Packet} {f : Flow} {u : Scene FlowTable σ} {v : Scene Flow σ}
      (absent : ∀ f ∈ s.self.flows, f.key ≠ key) (asked : operation = .send packet)
      (started : Flow.start s.self.session key packet s.self.config s = .ok (.ok f, u))
      (key_eq : f.key = key) (ran : Flow.receive packet { u with self := f } = .ok ((), v))
      (takes : Takes key v t)
  | refused {packet : Packet} {failure : Failure} {u : Scene FlowTable σ}
      (absent : ∀ f ∈ s.self.flows, f.key ≠ key) (asked : operation = .send packet)
      (started : Flow.start s.self.session key packet s.self.config s = .ok (.error failure, u))
      (unchanged : Unchanged s t)
  | missing (absent : ∀ f ∈ s.self.flows, f.key ≠ key)
      (other : ∀ packet, operation ≠ .send packet) (unchanged : Unchanged s t)

theorem Standing.entry_mem (standing : Standing s) (mem : f ∈ s.self.flows) :
    (f.registration.token, .flow s.self.session f.key) ∈ s.registry.handlers := by
  obtain ⟨others, kept⟩ := standing.kept
  refine kept.entries.mem_iff.2 (List.mem_filterMap.2 ⟨f.holding s.self.session, ?_, ?_⟩)
  · exact List.mem_append_left _ (List.mem_map_of_mem mem)
  · simp [Flow.holding, standing.isOpen f mem]

theorem mem_of_perm_filter {flows flows' : List Flow}
    (others : (flows'.filter fun f => f.key ≠ key).Perm (flows.filter fun f => f.key ≠ key))
    (mem : f ∈ flows) (other : f.key ≠ key) : f ∈ flows' :=
  (List.mem_filter.1 (others.mem_iff.2 (List.mem_filter.2 ⟨mem, by simpa using other⟩))).1

theorem Frames.trans (h : Frames key s t) (h' : Frames key t u) : Frames key s u where
  session_eq := h'.session_eq.trans h.session_eq
  config_eq := h'.config_eq.trans h.config_eq
  others := h'.others.trans h.others
  entries f mem other :=
    h.session_eq ▸ h'.entries f (mem_of_perm_filter h.others mem other) other
  aside f mem other :=
    (h.aside f mem other).trans (h'.aside f (mem_of_perm_filter h.others mem other) other)

/-- Where the flows of a key are exchanged for others of the same key, the rest is a frame. -/
theorem Standing.exchange (standing : Standing s) (before after : List Flow)
    (place : s.self.flows.Perm (before ++ rest)) (flows : t.self.flows.Perm (after ++ rest))
    (session_eq : t.self.session = s.self.session) (config_eq : t.self.config = s.self.config)
    (exchange : Exchange s.registry s.host (holdings s.self.session before) t.registry t.host
      (holdings s.self.session after))
    (absent : ∀ f ∈ rest, f.key ≠ key) (left : ∀ f ∈ before, f.key = key)
    (single : (after.map Flow.key).Nodup)
    (came : ∀ f ∈ after, f.key = key ∧ f.isClosed = false ∧ f.Consistent) :
    Standing t ∧ Frames key s t := by
  obtain ⟨others, kept⟩ := standing.kept
  have split := kept.perm ((place.map _).append_right others)
  rw [List.map_append, List.append_assoc] at split
  obtain ⟨kept', aside⟩ := exchange _ split
  have stays : ∀ f ∈ rest, f ∈ s.self.flows :=
    fun f mem => place.mem_iff.2 (List.mem_append_right _ mem)
  have filtered {some : List Flow} (own : ∀ f ∈ some, f.key = key) :
      (some ++ rest).filter (fun f => f.key ≠ key) = rest := by
    rw [List.filter_append, List.filter_eq_nil_iff.2 fun f mem => by simpa using own f mem,
      List.filter_eq_self.2 fun f mem => by simpa using absent f mem]
    rfl
  have standing' : Standing t := by
    refine ⟨?_, fun f mem => ?_, fun f mem => ?_, others, ?_⟩
    · refine ((flows.map Flow.key).nodup_iff).2 ?_
      rw [List.map_append, List.nodup_append]
      refine ⟨single, ?_, ?_⟩
      · have keys := ((place.map Flow.key).nodup_iff).1 standing.distinct
        rw [List.map_append, List.nodup_append] at keys
        exact keys.2.1
      · rintro _ mem _ mem' rfl
        obtain ⟨f, hf, same⟩ := List.mem_map.1 mem
        obtain ⟨g, hg, same'⟩ := List.mem_map.1 mem'
        exact absent g hg (same'.trans (same.symm.trans (came f hf).1))
    · rcases List.mem_append.1 (flows.mem_iff.1 mem) with new | old
      · exact (came f new).2.1
      · exact standing.isOpen f (stays f old)
    · rcases List.mem_append.1 (flows.mem_iff.1 mem) with new | old
      · exact (came f new).2.2
      · exact standing.consistent f (stays f old)
    · rw [session_eq]
      refine kept'.perm ?_
      rw [← List.append_assoc, holdings, ← List.map_append]
      exact (flows.map _).symm.append_right others
  have others_eq : (t.self.flows.filter fun f => f.key ≠ key).Perm
      (s.self.flows.filter fun f => f.key ≠ key) := by
    have after_eq := flows.filter fun f => f.key ≠ key
    have before_eq := place.filter fun f => f.key ≠ key
    rw [filtered fun f mem => (came f mem).1] at after_eq
    rw [filtered left] at before_eq
    exact after_eq.trans before_eq.symm
  refine ⟨standing', session_eq, config_eq, others_eq, fun f mem other => ?_, fun f mem other => ?_⟩
  · exact session_eq ▸ standing'.entry_mem (mem_of_perm_filter others_eq mem other)
  · rcases List.mem_append.1 (place.mem_iff.1 mem) with own | old
    · exact absurd (left f own) other
    · exact aside (f.holding s.self.session)
        (List.mem_append_left _ (List.mem_map_of_mem old))

/-- Only the flow that acts can change, whatever its place in the table. -/
theorem ensures_onFlow_frames {i : Nat} {act : Act Flow σ Unit} (standing : Standing s)
    (hf : s.self.flows[i]? = some f)
    (visits : Ensures act { s with self := f } fun _ u => ∃ calls, Flow.Visit { s with self := f } calls u) :
    Ensures (onFlow i act) s fun _ t => Standing t ∧ Frames f.key s t ∧
      ∃ u, act { s with self := f } = .ok ((), u) ∧ Takes f.key u t := by
  obtain ⟨hi, same⟩ := List.getElem?_eq_some_iff.1 hf
  have place : s.self.flows.Perm ([f] ++ s.self.flows.eraseIdx i) := by
    rw [← same]
    exact (List.getElem_cons_eraseIdx_perm hi).symm
  have keys := ((place.map Flow.key).nodup_iff).1 standing.distinct
  have absent : ∀ g ∈ s.self.flows.eraseIdx i, g.key ≠ f.key := fun g mem same =>
    (List.nodup_cons.1 keys).1 (same ▸ List.mem_map_of_mem mem)
  have consistent := standing.consistent f (List.mem_of_getElem? hf)
  simp only [onFlow, ensures_bind, ensures_self, hf, ensures_runOn]
  rintro _ u ran
  obtain ⟨calls, visit⟩ := visits _ u ran
  have key_eq : u.self.key = f.key := visit.key_eq
  have exchange := visit.exchange s.self.session
  have own : ∀ g ∈ [f], g.key = f.key := by simp
  simp only [removeIfClosed, ensures_modifySelf, ensures_bind, ensures_self, List.getElem?_set_self hi]
  split
  · next closed =>
    simp only [ensures_bind, ensures_modifySelf, ensures_note, ensures_tell]
    -- The last flow takes the place of the one that has ended.
    have flows : (swapRemove (s.self.flows.set i u.self) i).Perm ([] ++ s.self.flows.eraseIdx i) := by
      refine (swapRemove_perm (by simpa using hi)).trans ?_
      rw [List.eraseIdx_set_eq]
      exact .refl _
    have gone := (exchange.trans (.note _ _ _ (.flow u.self.key .removed))).trans
      (Flow.exchange_close closed _ _ s.self.session)
    rw [← and_assoc]
    refine ⟨standing.exchange [f] [] place flows rfl rfl gone absent own List.nodup_nil
      (List.forall_mem_nil _), u, ran, ⟨fun g => ?_, rfl, rfl, ?_⟩⟩
    · refine iff_of_false (fun found => ?_) (by simp [closed])
      exact absent g (flows.mem_iff.1 found.1) found.2
    · rw [if_pos closed]
      exact (Host.Adds.note (.refl u.host) _).trans (Host.adds_close _ _)
  · next isOpen =>
    rw [Bool.not_eq_true] at isOpen
    rw [ensures_pure]
    have flows : (s.self.flows.set i u.self).Perm ([u.self] ++ s.self.flows.eraseIdx i) :=
      List.set_perm_cons_eraseIdx hi u.self
    rw [← and_assoc]
    refine ⟨standing.exchange [f] [u.self] place flows rfl rfl exchange absent own
      (List.pairwise_singleton _ _) (List.forall_mem_singleton.2 ⟨key_eq, isOpen, visit.consistent consistent⟩), u, ran,
      ⟨fun g => ?_, rfl, rfl, ?_⟩⟩
    · constructor
      · rintro ⟨mem, own⟩
        rcases List.mem_cons.1 (flows.mem_iff.1 mem) with rfl | other
        · exact ⟨isOpen, rfl⟩
        · exact absurd own (absent g other)
      · rintro ⟨-, rfl⟩
        exact ⟨flows.mem_iff.2 List.mem_cons_self, key_eq⟩
    · rw [if_neg (by simp [isOpen])]
      exact .refl _

theorem Standing.frames (standing : Standing s) (key : FlowKey) : Frames key s s :=
  ⟨rfl, rfl, .refl _, fun _ mem _ => standing.entry_mem mem, fun _ _ _ => .refl _⟩

theorem Standing.note (standing : Standing s) (notice : Notice) :
    Standing { s with host := s.host.record (.notice notice) } := by
  obtain ⟨others, kept⟩ := standing.kept
  refine ⟨standing.distinct, standing.isOpen, standing.consistent, others, ?_⟩
  exact kept.adds (.note (.refl s.host) notice) (List.forall_mem_nil _)

theorem Frames.note (frames : Frames key s t) (notice : Notice) :
    Frames key s { t with host := t.host.record (.notice notice) } :=
  ⟨frames.session_eq, frames.config_eq, frames.others, frames.entries,
    fun f mem other => (frames.aside f mem other).note notice⟩

private theorem Standing.shed {flows : List Flow} {tunnel : SocketId} (standing : Standing s)
    (sub : flows.Sublist s.self.flows)
    (shed : Sheds tunnel s (holdings s.self.session s.self.flows) calls t
      (holdings s.self.session flows)) : Standing { t with self := { t.self with flows } } := by
  obtain ⟨others, kept⟩ := standing.kept
  refine ⟨(sub.map _).nodup standing.distinct, fun f mem => standing.isOpen f (sub.mem mem),
    fun f mem => standing.consistent f (sub.mem mem), others, ?_⟩
  rw [shed.self_eq]
  exact (shed.exchange others kept).1

private theorem Standing.apart (standing : Standing s) :
    ∀ f ∈ s.self.flows, f.socket ≠ s.host.nextSocket := by
  obtain ⟨others, kept⟩ := standing.kept
  intro f mem
  have opened := kept.opened (f.holding s.self.session)
    (List.mem_append_left _ (List.mem_map_of_mem mem))
  exact Nat.ne_of_lt opened.1

variable [Outlet σ]

theorem ensures_send_frames {packet : Packet} (standing : Standing s) :
    Ensures (send packet) s fun _ t => Standing t ∧
      (packet.isValid = true → ∃ key, keyOf? packet = some key) ∧
      (packet.isValid = false → Unchanged s t) ∧
      ∀ key, keyOf? packet = some key → Frames key s t ∧ Serves (.send packet) key s t := by
  simp only [send, ensures_bind, ensures_self, ensures_liftM]
  intro found routed
  have key?_eq : keyOf? packet = found := by rw [keyOf?, routed]
  split
  · rw [ensures_bind, ensures_note, ensures_note]
    refine ⟨(standing.note _).note _, fun valid => ?_, fun _ => ⟨rfl, rfl, rfl⟩, fun key known => ?_⟩
    · cases (FlowKey.ofPacket_eq_none_iff.1 routed).symm.trans valid
    · cases key?_eq.symm.trans known
  next key =>
  -- A packet with a key can be routed, and its key is the only one to look at.
  suffices main : Ensures _ s fun _ t => Standing t ∧ Frames key s t ∧ Serves (.send packet) key s t by
    refine main.mono ?_
    rintro _ t ⟨standing', frames, serves⟩
    refine ⟨standing', fun _ => ⟨key, key?_eq⟩, fun invalid => ?_, ?_⟩
    · cases routed.symm.trans (FlowKey.ofPacket_eq_none_iff.2 invalid)
    · intro other known
      cases key?_eq.symm.trans known
      exact ⟨frames, serves⟩
  split
  · next i hi =>
    obtain ⟨f, hf, rfl⟩ := find?_eq_some hi
    have mem := List.mem_of_getElem? hf
    refine (ensures_onFlow_frames standing hf (Flow.visits_receive (standing.consistent f mem))).mono ?_
    rintro _ t ⟨standing', frames, u, ran, takes⟩
    exact ⟨standing', frames, .acted mem rfl ran takes⟩
  next found =>
  have absent := find?_eq_none found
  obtain ⟨others, kept⟩ := standing.kept
  rw [ensures_bind]
  intro result t started
  obtain ⟨calls, opens⟩ := Flow.ensures_start _ _ started
  rcases result with failure | f
  · have handlers := Flow.handlers_of_refused kept.below _ _ started failure rfl
    have left : Standing t ∧ Frames key s t := by
      refine standing.exchange [] [] (.refl _) ?_ ?_ ?_ opens.exchange absent
        (List.forall_mem_nil _) List.nodup_nil (List.forall_mem_nil _)
      all_goals rw [opens.self_eq]
      exact .refl _
    rw [ensures_note]
    exact ⟨left.1.note _, left.2.note _, .refused absent rfl started
      ⟨opens.self_eq, handlers, opens.out_eq⟩⟩
  · obtain ⟨rfl, -, -, isOpen, consistent⟩ := opens.fresh rfl
    simp only [ensures_bind, ensures_modifySelf]
    have added : Standing { t with self := { t.self with flows := t.self.flows ++ [f] } } ∧
        Frames f.key s { t with self := { t.self with flows := t.self.flows ++ [f] } } := by
      refine standing.exchange [] [f] (.refl _) ?_ ?_ ?_ opens.exchange absent
        (List.forall_mem_nil _) (List.pairwise_singleton _ _)
        (List.forall_mem_singleton.2 ⟨rfl, isOpen, consistent⟩)
      all_goals dsimp only; rw [opens.self_eq]
      exact List.perm_append_comm
    have last : (t.self.flows ++ [f])[s.self.flows.length]? = some f := by
      rw [opens.self_eq, List.getElem?_concat_length]
    refine (ensures_onFlow_frames added.1 last (Flow.visits_receive consistent)).mono ?_
    rintro _ v ⟨standing', frames, w, ran, takes⟩
    exact ⟨standing', added.2.trans frames, .opened absent rfl started rfl ran takes⟩

theorem ensures_ready_frames {readiness : Readiness} (standing : Standing s) :
    Ensures (onReady key readiness) s fun _ t => Standing t ∧ Frames key s t ∧
      Serves (.ready key readiness) key s t := by
  simp only [onReady, ensures_bind, ensures_self]
  split
  · next absent =>
    rw [ensures_note]
    refine ⟨standing.note _, (standing.frames key).note _,
      .missing (find?_eq_none absent) ?_ ⟨rfl, rfl, rfl⟩⟩
    rintro _ ⟨⟩
  · next i hi =>
    obtain ⟨f, hf, rfl⟩ := find?_eq_some hi
    refine (ensures_onFlow_frames standing hf Flow.visits_onReady).mono ?_
    rintro _ t ⟨standing', frames, u, ran, takes⟩
    exact ⟨standing', frames, .acted (List.mem_of_getElem? hf) rfl ran takes⟩

theorem ensures_pull_frames (standing : Standing s) :
    Ensures (pull key) s fun _ t => Standing t ∧ Frames key s t ∧ Serves (.pull key) key s t := by
  simp only [pull, ensures_bind, ensures_self]
  split
  · next absent =>
    rw [ensures_pure]
    refine ⟨standing, standing.frames key, .missing (find?_eq_none absent) ?_ ⟨rfl, rfl, rfl⟩⟩
    rintro _ ⟨⟩
  · next i hi =>
    obtain ⟨f, hf, rfl⟩ := find?_eq_some hi
    have mem := List.mem_of_getElem? hf
    refine (ensures_onFlow_frames standing hf (Flow.visits_pull (standing.consistent f mem))).mono ?_
    rintro _ t ⟨standing', frames, u, ran, takes⟩
    exact ⟨standing', frames, .acted mem rfl ran takes⟩

theorem ensures_sweep_standing {now : Nat} (standing : Standing s) :
    Ensures (sweep now) s fun _ t => Standing t := by
  simp only [sweep, ensures_bind, ensures_self]
  refine (ensures_keepUnexpired s.self.session standing.apart).mono ?_
  rintro kept t ⟨sub, calls, shed⟩
  exact (ensures_modifySelf _).2 (standing.shed sub shed)

theorem ensures_clear_standing (standing : Standing s) : Ensures clear s fun _ t => Standing t := by
  refine (ensures_clear s.self.session standing.apart).mono ?_
  rintro _ t ⟨calls, u, shed, rfl⟩
  exact standing.shed (List.nil_sublist _) shed

theorem Run.standing (run : Run s) : Standing s := by
  induction run with
  | start kept => exact ⟨List.nodup_nil, List.forall_mem_nil _, List.forall_mem_nil _, _, kept⟩
  | world _ kept ih => exact ⟨ih.distinct, ih.isOpen, ih.consistent, _, kept⟩
  | @act s t _ operation performed ih =>
    cases operation with
    | send packet => exact (ensures_send_frames ih _ _ performed).1
    | ready key readiness => exact (ensures_ready_frames ih _ _ performed).1
    | pull key => exact (ensures_pull_frames ih _ _ performed).1
    | sweep now => exact ensures_sweep_standing ih _ _ performed
    | clear => exact ensures_clear_standing ih _ _ performed

/-- In every run the flows of a table are independent. Their keys differ. An operation on a key lets
the flow of that key act, opens one for a packet, or does nothing; the flow is there afterwards if it
has not ended; and the flows of all other keys stay as they are. Packets that cannot be routed change
nothing, nor do those for which no flow can be opened. -/
theorem Run.flows_independent (run : Run s) {operation : Operation}
    (performed : operation.perform s = .ok ((), t)) :
    (t.self.flows.map Flow.key).Nodup ∧
      (∀ key, operation.key? = some key → Frames key s t ∧ Serves operation key s t) ∧
      ∀ packet, operation = .send packet →
        (packet.isValid = true → ∃ key, operation.key? = some key) ∧
        (packet.isValid = false → Unchanged s t) := by
  refine ⟨(run.act performed).standing.distinct, fun key about => ?_, ?_⟩
  · cases operation with
    | send packet => exact (ensures_send_frames run.standing _ _ performed).2.2.2 key about
    | ready key' readiness =>
      obtain rfl : key' = key := Option.some.inj about
      exact (ensures_ready_frames run.standing _ _ performed).2
    | pull key' =>
      obtain rfl : key' = key := Option.some.inj about
      exact (ensures_pull_frames run.standing _ _ performed).2
    | sweep | clear => cases about
  · rintro packet rfl
    obtain ⟨-, valid, invalid, -⟩ := ensures_send_frames run.standing _ _ performed
    exact ⟨valid, invalid⟩

def performAll : List Operation → Act FlowTable σ Unit
  | [] => return ()
  | operation :: rest => do
    operation.perform
    performAll rest

theorem Run.ensures_performAll {operations : List Operation} (run : Run s) :
    Ensures (performAll operations) s fun _ t => Run t := by
  induction operations generalizing s with
  | nil => exact (ensures_pure _).2 run
  | cons operation rest ih =>
    rw [performAll, ensures_bind]
    exact fun _ _ performed => ih (run.act performed)

def Operation.ofDevice (bytes : Bytes) : Operation :=
  match Packet.ofBytes bytes with
  | .ok packet => .send packet
  | .error _ => .clear

/-- Whether a table that starts empty gets through the operations and then through one more, with
scenes before and after the last one that are as `p` says. -/
def enacts (host : Host) (operations : List Operation) (last : Operation)
    (p : FlowTable → FlowTable → Bool) : Bool :=
  match performAll operations ⟨{
      session := 1
      config := { streamCapacity := 16, datagramCapacity := 16 } }, {}, (⟨none⟩ : Credit), host⟩ with
  | .ok (_, s) =>
    match last.perform s with
    | .ok (_, t) => p s.self t.self
    | .error _ => false
  | .error _ => false

theorem exists_run_of_enacts {host : Host} {operations : List Operation} {last : Operation}
    {p : FlowTable → FlowTable → Bool} (unused : host.calls = [])
    (h : enacts host operations last p = true) :
    ∃ s t : Scene FlowTable Credit, Run s ∧ last.perform s = .ok ((), t) ∧ p s.self t.self = true := by
  unfold enacts at h
  split at h
  · next s performed =>
    split at h
    · next t performed' =>
      exact ⟨s, t, (Run.start (kept_nil unused)).ensures_performAll _ _ performed, performed', h⟩
    · cases h
  · cases h

/-- The device resets the first of three flows, and the last one takes its place. -/
theorem flows_independent_swapped : ∃ s t : Scene FlowTable Credit, ∃ first second third : FlowKey,
    Run s ∧ s.self.flows.map Flow.key = [first, second, third] ∧
      t.self.flows.map Flow.key = [third, second] ∧ Frames first s t := by
  let remote : Endpoint := ⟨0x08080808, 53⟩
  let first : FlowKey := ⟨.tcp, ⟨0x0a000002, 0xa028⟩, ⟨0x5db8d822, 80⟩⟩
  let second : FlowKey := ⟨.udp, ⟨0x0a000002, 0xa028⟩, remote⟩
  let third : FlowKey := ⟨.udp, ⟨0x0a000002, 0xa029⟩, remote⟩
  let reset : Operation := .ofDevice (TcpFlow.devicePacket .rst 0x111 0 [])
  obtain ⟨s, t, run, performed, result⟩ := exists_run_of_enacts rfl
    (p := fun s t => s.flows.map Flow.key == [first, second, third] &&
      t.flows.map Flow.key == [third, second])
    (show enacts {} [.ofDevice (TcpFlow.devicePacket .syn 0x110 0 []),
        .ofDevice (UdpFlow.devicePacket [7]),
        .ofDevice ((UdpFlow.devicePacket [8]).set 21 0x29)] reset _ = true by
      decide +kernel)
  simp only [Bool.and_eq_true, beq_iff_eq] at result
  have about : reset.key? = some first := by decide +kernel
  refine ⟨s, t, first, second, third, run, result.1, result.2, ?_⟩
  exact ((run.flows_independent performed).2.1 first about).1

end FlowTable

end TunnelRelay
