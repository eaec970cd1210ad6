import Mathlib.Data.List.Perm.Basic
import TunnelRelay.FlowTable
import TunnelRelay.Proofs.Flow.Tcp.Turn
import TunnelRelay.Proofs.Flow.Udp.Turn

/-!
# Flow tables stay sound

The flows of a sound table are open, have different keys and sockets of their own, and those that hold
a packet back wait for room. Every operation of a table leaves it so. A pull restores what taking the
flow's key from those that wait has broken.
-/

namespace TunnelRelay

open Act

namespace Flow

section

variable {σ : Type} [Outlet σ] {s : Scene Flow σ}

theorem visits_receive {packet : Packet} (consistent : s.self.Consistent) :
    Ensures (receive packet) s fun _ t => ∃ calls, Visit s calls t := by
  apply ensures_byProtocol
  · rintro s rfl
    exact TcpFlow.ensures_receive consistent fun _ _ _ _ course _ => ⟨_, course.path.visit⟩
  · rintro s rfl
    exact (UdpFlow.reaches_receive packet s).mono fun _ _ reaches => reaches.visit

theorem visits_onReady {readiness : Readiness} :
    Ensures (onReady readiness) s fun _ t => ∃ calls, Visit s calls t := by
  apply ensures_byProtocol
  · rintro s rfl
    exact TcpFlow.ensures_onReady fun _ _ course => ⟨_, course.path.visit⟩
  · rintro s rfl
    exact (UdpFlow.reaches_onReady readiness s).mono fun _ _ reaches => reaches.visit

theorem visits_pull (consistent : s.self.Consistent) :
    Ensures pull s fun _ t => ∃ calls, Visit s calls t := by
  apply ensures_byProtocol
  · rintro s rfl
    exact TcpFlow.ensures_pull consistent (fun _ => ⟨_, .of_after (.refl _)⟩)
      fun _ _ _ _ _ _ _ course => ⟨_, course.path.visit⟩
  · rintro s rfl
    exact (UdpFlow.reaches_pull s).mono fun _ _ reaches => reaches.visit

theorem ensures_disconnect : Ensures disconnect s fun _ t => ∃ calls, Ended s calls t := by
  apply ensures_byProtocol
  · rintro s rfl
    exact TcpFlow.ensures_ended
  · rintro s rfl
    exact UdpFlow.ensures_ended

end

variable {s : Scene Flow Outbox}

theorem ensures_receive {packet : Packet} (consistent : s.self.Consistent) :
    Ensures (receive packet) s fun _ t => ∃ calls, Turn s calls t := by
  apply ensures_byProtocol
  · rintro s rfl
    exact TcpFlow.ensures_receive consistent fun _ _ _ _ course _ => ⟨_, course.path.turn⟩
  · rintro s rfl
    exact (UdpFlow.reaches_receive packet s).mono fun _ _ reaches => reaches.turn

theorem ensures_onReady {readiness : Readiness} :
    Ensures (onReady readiness) s fun _ t => ∃ calls, Turn s calls t := by
  apply ensures_byProtocol
  · rintro s rfl
    exact TcpFlow.ensures_onReady fun _ _ course => ⟨_, course.path.turn⟩
  · rintro s rfl
    exact (UdpFlow.reaches_onReady readiness s).mono fun _ _ reaches => reaches.turn

theorem ensures_pull (consistent : s.self.Consistent) (isOpen : s.self.isClosed = false) :
    Ensures pull s fun _ t => (∃ calls, Turn s calls t) ∧ t.self.Waits t.out.waiting := by
  apply ensures_byProtocol
  · rintro s rfl
    exact TcpFlow.ensures_pull_waits consistent isOpen
  · rintro s rfl
    exact UdpFlow.ensures_pull_waits isOpen

theorem ensures_start {α σ : Type} {session : Nat} {key : FlowKey} {request : Packet}
    {config : Config} {s : Scene α σ} :
    Ensures (start session key request config) s fun result t =>
      ∃ calls, Opens session key request s calls result t := by
  unfold start
  split
  · simp only [ensures_bind, ensures_pure]
    exact TcpFlow.ensures_opens
  · simp only [ensures_bind, ensures_pure]
    exact UdpFlow.ensures_opens

/-- An open flow whose socket is not the tunnel. -/
structure Live (tunnel : SocketId) (f : Flow) : Prop where
  isOpen : f.isClosed = false
  socket_ne : f.socket ≠ tunnel
  consistent : f.Consistent

end Flow

/-- The element at the place of another one comes first, and the others follow in some order. -/
theorem swapRemove_perm {α : Type} {xs : List α} {i : Nat} (h : i < xs.length) :
    (swapRemove xs i).Perm (xs.eraseIdx i) := by
  rcases List.eq_nil_or_concat xs with rfl | ⟨init, last, rfl⟩
  · cases h
  rw [List.concat_eq_append, List.length_append, List.length_singleton] at h
  simp only [swapRemove, List.concat_eq_append, List.getLast?_concat]
  rcases Nat.lt_succ_iff_lt_or_eq.1 h with inside | rfl
  · rw [List.set_append_left _ _ inside, List.dropLast_concat,
      List.eraseIdx_append_of_lt_length inside]
    refine (List.set_perm_cons_eraseIdx inside last).trans ?_
    exact (List.perm_append_singleton last _).symm
  · simp [List.set_append_right, List.eraseIdx_append_of_length_le]

namespace FlowTable

variable {tunnel : SocketId} {waiting waiting' : List FlowKey} {flows flows' : List Flow} {f : Flow}
  {key : FlowKey}

/-- The flows of a table, given the tunnel of the session and the flows that wait. -/
structure Sound (tunnel : SocketId) (waiting : List FlowKey) (flows : List Flow) : Prop where
  distinct : (flows.map Flow.key).Nodup
  live : ∀ f ∈ flows, f.Live tunnel
  waits : ∀ f ∈ flows, f.Waits waiting

namespace Sound

theorem perm (h : Sound tunnel waiting flows) (hp : flows.Perm flows') :
    Sound tunnel waiting flows' where
  distinct := (hp.map Flow.key).nodup_iff.1 h.distinct
  live f mem := h.live f (hp.mem_iff.2 mem)
  waits f mem := h.waits f (hp.mem_iff.2 mem)

theorem mono (h : Sound tunnel waiting flows) (hw : waiting ⊆ waiting') :
    Sound tunnel waiting' flows :=
  ⟨h.distinct, h.live, fun f mem pending => hw (h.waits f mem pending)⟩

theorem sublist (h : Sound tunnel waiting flows) (hs : flows'.Sublist flows) :
    Sound tunnel waiting flows' where
  distinct := (hs.map Flow.key).nodup h.distinct
  live f mem := h.live f (hs.mem mem)
  waits f mem := h.waits f (hs.mem mem)

theorem cons (h : Sound tunnel waiting flows) (fresh : ∀ g ∈ flows, g.key ≠ f.key)
    (live : f.Live tunnel) (waits : f.Waits waiting) : Sound tunnel waiting (f :: flows) where
  distinct := by
    rw [List.map_cons, List.nodup_cons]
    refine ⟨fun mem => ?_, h.distinct⟩
    obtain ⟨g, hg, same⟩ := List.mem_map.1 mem
    exact fresh g hg same
  live := List.forall_mem_cons.2 ⟨live, h.live⟩
  waits := List.forall_mem_cons.2 ⟨waits, h.waits⟩

theorem key_ne (h : Sound tunnel waiting (f :: flows)) : ∀ g ∈ flows, g.key ≠ f.key := by
  intro g hg same
  have distinct := h.distinct
  rw [List.map_cons, List.nodup_cons] at distinct
  exact distinct.1 (same ▸ List.mem_map_of_mem hg)

theorem of_cons_waiting (h : Sound tunnel (key :: waiting) flows)
    (other : ∀ g ∈ flows, g.key ≠ key) : Sound tunnel waiting flows := by
  refine ⟨h.distinct, h.live, fun g hg pending => ?_⟩
  rcases List.mem_cons.1 (h.waits g hg pending) with same | mem
  · exact absurd same (other g hg)
  · exact mem

end Sound

theorem find?_eq_some {t : FlowTable} {i : Nat} (h : t.find? key = some i) :
    ∃ f, t.flows[i]? = some f ∧ f.key = key := by
  obtain ⟨hi, found, -⟩ := List.findIdx?_eq_some_iff_getElem.1 h
  exact ⟨_, List.getElem?_eq_getElem hi, by simpa using found⟩

theorem find?_eq_none {t : FlowTable} (h : t.find? key = none) : ∀ f ∈ t.flows, f.key ≠ key := by
  intro f mem
  simpa using List.findIdx?_eq_none_iff.1 h f mem

/-- The sockets of a table's flows. -/
def holdings (session : Nat) (flows : List Flow) : List Holding := flows.map (Flow.holding session)

/-- What an operation of a table leads to, seen from its session. All that is sent answers the key
that the operation is about. -/
structure Served (tunnel : SocketId) (key? : Option FlowKey) (s : Scene FlowTable Outbox)
    (calls : List Event) (t : Scene FlowTable Outbox) : Prop where
  session_eq : t.self.session = s.self.session
  config_eq : t.self.config = s.self.config
  sound : Sound tunnel t.out.waiting t.self.flows
  grows : s.out.Grows calls t.out
  adds : s.host.Adds calls t.host
  spares : ∀ e ∈ calls, e.Spares tunnel
  exchange : Exchange s.registry s.host (holdings s.self.session s.self.flows) t.registry t.host
    (holdings s.self.session t.self.flows)
  suits : (∀ f ∈ s.self.flows, f.Suits) → ∀ f ∈ t.self.flows, f.Suits
  answers : (∀ f ∈ s.self.flows, f.Suits) → ∀ packet ∈ Event.posted calls,
    ∃ key, key? = some key ∧ Answers key packet

variable {s t : Scene FlowTable Outbox} {key? : Option FlowKey} {calls : List Event}

namespace Served

theorem aside (h : Served tunnel key? s calls t) : Host.Aside tunnel s.host t.host :=
  h.adds.aside h.spares

theorem note (h : Served tunnel key? s calls t) (notice : Notice) :
    Served tunnel key? s calls { t with host := t.host.record (.notice notice) } where
  session_eq := h.session_eq
  config_eq := h.config_eq
  sound := h.sound
  grows := h.grows
  adds := h.adds.note notice
  spares := h.spares
  exchange := h.exchange.trans (.note _ _ _ notice)
  suits := h.suits
  answers := h.answers

theorem refl (sound : Sound tunnel s.out.waiting s.self.flows) : Served tunnel key? s [] s where
  session_eq := rfl
  config_eq := rfl
  sound := sound
  grows := .of_silent rfl
  adds := .refl _
  spares := List.forall_mem_nil _
  exchange := .refl _ _ _
  suits := id
  answers _ := List.forall_mem_nil _

theorem trans {u : Scene FlowTable Outbox} {first second : List Event}
    (h : Served tunnel key? s first t) (h' : Served tunnel key? t second u) :
    Served tunnel key? s (first ++ second) u where
  session_eq := h'.session_eq.trans h.session_eq
  config_eq := h'.config_eq.trans h.config_eq
  sound := h'.sound
  grows := h.grows.trans h'.grows
  adds := h.adds.trans h'.adds
  spares := List.forall_mem_append.2 ⟨h.spares, h'.spares⟩
  exchange := h.exchange.trans (h.session_eq ▸ h'.exchange)
  suits all := h'.suits (h.suits all)
  answers all := by
    rw [Event.posted_append]
    exact List.forall_mem_append.2 ⟨h.answers all, h'.answers (h.suits all)⟩

end Served

/-- After its turn a flow takes its place again, or leaves the table. -/
theorem ensures_onFlow {i : Nat} {act : Act Flow Outbox Unit} (hf : s.self.flows[i]? = some f)
    (sound : Sound tunnel waiting s.self.flows)
    (others : Sound tunnel s.out.waiting (s.self.flows.eraseIdx i))
    (acts : Ensures act { s with self := f } fun _ t =>
      (∃ calls, Flow.Turn { s with self := f } calls t) ∧ t.self.Waits t.out.waiting) :
    Ensures (onFlow i act) s fun _ t => ∃ calls, Served tunnel (some f.key) s calls t := by
  obtain ⟨hi, same⟩ := List.getElem?_eq_some_iff.1 hf
  -- The flow comes first and the others are its frame, whatever its place in the table.
  have place := (List.getElem_cons_eraseIdx_perm hi).symm
  rw [same] at place
  have live : f.Live tunnel := sound.live f (same ▸ List.getElem_mem hi)
  simp only [onFlow, ensures_bind, ensures_self, hf, ensures_runOn]
  refine acts.mono ?_
  rintro _ t ⟨⟨calls, turn⟩, waits⟩
  have spares := turn.own.spares live.socket_ne
  have others' := others.mono turn.grows.waiting_subset
  have apart : t.self.socket ≠ tunnel := turn.socket_eq ▸ live.socket_ne
  have exchange : Exchange s.registry s.host (holdings s.self.session s.self.flows) t.registry t.host
      (t.self.holding s.self.session ::
        holdings s.self.session (s.self.flows.eraseIdx i)) :=
    ((turn.exchange s.self.session).frame _).perm_left (place.map _)
  have suits (all : ∀ f ∈ s.self.flows, f.Suits) :
      ∀ g ∈ t.self :: s.self.flows.eraseIdx i, g.Suits := by
    refine List.forall_mem_cons.2 ⟨turn.suits (all f (place.mem_iff.2 (List.mem_cons_self ..))), ?_⟩
    exact fun g hg => all g (List.mem_of_mem_eraseIdx hg)
  have answers (all : ∀ f ∈ s.self.flows, f.Suits) : ∀ packet ∈ Event.posted calls,
      ∃ key, some f.key = some key ∧ Answers key packet := fun packet mem =>
    ⟨_, rfl, turn.answers (all f (place.mem_iff.2 (List.mem_cons_self ..))) packet mem⟩
  simp only [removeIfClosed, ensures_modifySelf, ensures_bind, ensures_self, List.getElem?_set_self hi]
  split
  · next closed =>
    simp only [ensures_bind, ensures_modifySelf, ensures_note, ensures_tell]
    -- The last flow takes the place of the one that has ended.
    have left : (s.self.flows.eraseIdx i).Perm (swapRemove (s.self.flows.set i t.self) i) := by
      rw [← List.eraseIdx_set_eq]
      exact (swapRemove_perm (by simpa using hi)).symm
    have noted := (turn.called.note (.flow t.self.key .removed)).adds
    refine ⟨calls ++ [.close t.self.socket], rfl, rfl, others'.perm left, ?_, ?_, ?_, ?_, ?_, ?_⟩
    · exact turn.grows.congr (by simp [Event.posted, Event.posted?])
    · exact noted.trans (Host.adds_close _ _)
    · refine List.forall_mem_append.2 ⟨spares, ?_⟩
      simpa [Event.Spares, Event.socket?] using apart
    · have removed := exchange.trans (.note _ _ _ (.flow t.self.key .removed))
      have gone := removed.trans ((Flow.exchange_close closed _ _ s.self.session).frame _)
      exact gone.perm_right (left.map _)
    · exact fun all g hg => suits all g (List.mem_cons_of_mem _ (left.mem_iff.2 hg))
    · simpa [Event.posted, Event.posted?] using answers
  · next isOpen =>
    have back := (List.set_perm_cons_eraseIdx hi t.self).symm
    have distinct := (sound.perm place).key_ne
    refine (ensures_pure _).2 ⟨calls, rfl, rfl, ?_, turn.grows, turn.called.adds, spares, ?_, ?_,
      answers⟩
    · refine (Sound.cons others' ?_ ?_ waits).perm back
      · exact fun g hg => turn.key_eq ▸ distinct g hg
      · exact ⟨by simpa using isOpen, apart, turn.consistent live.consistent⟩
    · exact exchange.perm_right (back.map _)
    · exact fun all g hg => suits all g (back.mem_iff.2 hg)

/-- Where all flows that hold a packet back wait, they still do after the turn of one of them. -/
theorem ensures_onFlow_of_turn {i : Nat} {act : Act Flow Outbox Unit}
    (hf : s.self.flows[i]? = some f) (sound : Sound tunnel s.out.waiting s.self.flows)
    (acts : Ensures act { s with self := f } fun _ t =>
      ∃ calls, Flow.Turn { s with self := f } calls t) :
    Ensures (onFlow i act) s fun _ t => ∃ calls, Served tunnel (some f.key) s calls t := by
  have waits := sound.waits f (List.mem_of_getElem? hf)
  refine ensures_onFlow hf sound (sound.sublist (List.eraseIdx_sublist _ i)) (acts.mono ?_)
  rintro _ t ⟨calls, turn⟩
  exact ⟨⟨calls, turn⟩, turn.waits waits⟩

theorem Sound.consistent_of_getElem? {i : Nat} (sound : Sound tunnel waiting flows)
    (hf : flows[i]? = some f) : f.Consistent :=
  (sound.live f (List.mem_of_getElem? hf)).consistent

def keyOf? (packet : Packet) : Option FlowKey :=
  match FlowKey.ofPacket packet with
  | .ok found => found
  | .error _ => none

section

variable {request : Packet} {bytes : Bytes}

private theorem served_of_error {failure : Failure} (sound : Sound tunnel s.out.waiting s.self.flows)
    (exists' : tunnel < s.host.nextSocket)
    (opens : Flow.Opens s.self.session key request s calls (.error failure) t) :
    Served tunnel key? s calls t where
  session_eq := by rw [opens.self_eq]
  config_eq := by rw [opens.self_eq]
  sound := by
    rw [opens.self_eq, opens.out_eq]
    exact sound
  grows := opens.out_eq ▸ .of_silent opens.silent
  adds := opens.adds
  spares := opens.spares exists'
  exchange := by
    rw [opens.self_eq]
    exact opens.exchange.frame _
  suits := by
    rw [opens.self_eq]
    exact id
  answers _ := by
    rw [opens.silent]
    exact List.forall_mem_nil _

private theorem served_of_opens (sound : Sound tunnel s.out.waiting s.self.flows)
    (exists' : tunnel < s.host.nextSocket) (absent : ∀ g ∈ s.self.flows, g.key ≠ key)
    (parsed : Packet.ofBytes bytes = .ok request)
    (routed : FlowKey.ofPacket request = .ok (some key))
    (opens : Flow.Opens s.self.session key request s calls (.ok f) t) :
    Served tunnel key? s calls
      { t with self := { t.self with flows := t.self.flows ++ [f] } } where
  session_eq := by rw [opens.self_eq]
  config_eq := by rw [opens.self_eq]
  sound := by
    obtain ⟨key_eq, number, idle, isOpen, consistent⟩ := opens.fresh rfl
    have apart : f.socket ≠ tunnel := number ▸ Nat.ne_of_gt exists'
    rw [opens.self_eq, opens.out_eq]
    refine (Sound.cons sound (key_eq ▸ absent) ⟨isOpen, apart, consistent⟩ ?_).perm
      (List.perm_append_singleton f _).symm
    exact fun pending => absurd (idle.symm.trans pending) Bool.false_ne_true
  grows := opens.out_eq ▸ .of_silent opens.silent
  adds := opens.adds
  spares := opens.spares exists'
  exchange := by
    rw [opens.self_eq, holdings, holdings, List.map_append]
    exact (opens.exchange.frame _).perm_right (List.perm_append_comm ..)
  suits all := by
    rw [opens.self_eq]
    exact List.forall_mem_append.2 ⟨all, by simpa using opens.suits rfl parsed routed⟩
  answers _ := by
    rw [opens.silent]
    exact List.forall_mem_nil _

end

theorem ensures_send {packet : Packet} {bytes : Bytes}
    (sound : Sound tunnel s.out.waiting s.self.flows) (opened : tunnel < s.host.nextSocket)
    (parsed : Packet.ofBytes bytes = .ok packet) :
    Ensures (send packet) s fun _ t => ∃ calls, Served tunnel (keyOf? packet) s calls t := by
  simp only [send, ensures_bind, ensures_self, ensures_liftM]
  intro found routed
  have key? : keyOf? packet = found := by rw [keyOf?, routed]
  split
  · simp only [ensures_bind, ensures_note]
    exact ⟨[], ((Served.refl sound).note _).note _⟩
  next key =>
  rw [key?]
  split
  · next i hi =>
    obtain ⟨f, hf, rfl⟩ := find?_eq_some hi
    refine ensures_onFlow_of_turn hf sound (Flow.ensures_receive ?_)
    exact sound.consistent_of_getElem? hf
  next absent =>
  rw [ensures_bind]
  refine Flow.ensures_start.mono ?_
  rintro (failure | f) t ⟨calls, opens⟩
  · rw [ensures_note]
    exact ⟨calls, (served_of_error sound opened opens).note _⟩
  · simp only [ensures_bind, ensures_modifySelf]
    have added : Served tunnel (some key) s calls _ :=
      served_of_opens sound opened (find?_eq_none absent) parsed routed opens
    have last : (t.self.flows ++ [f])[s.self.flows.length]? = some f := by
      rw [opens.self_eq, List.getElem?_concat_length]
    obtain ⟨key_eq, -, -, -, consistent⟩ := opens.fresh rfl
    rw [← key_eq] at added ⊢
    refine (ensures_onFlow_of_turn last added.sound (Flow.ensures_receive consistent)).mono ?_
    rintro _ u ⟨more, served⟩
    exact ⟨_, added.trans served⟩

theorem ensures_onReady {readiness : Readiness}
    (sound : Sound tunnel s.out.waiting s.self.flows) :
    Ensures (onReady key readiness) s fun _ t => ∃ calls, Served tunnel (some key) s calls t := by
  simp only [onReady, ensures_bind, ensures_self]
  split
  · exact (ensures_note _).2 ⟨[], (Served.refl sound).note _⟩
  · next i hi =>
    obtain ⟨f, hf, rfl⟩ := find?_eq_some hi
    exact ensures_onFlow_of_turn hf sound Flow.ensures_onReady

/-- A key that was taken from those that wait may be the only place of its flow. -/
theorem ensures_pull (sound : Sound tunnel (key :: s.out.waiting) s.self.flows) :
    Ensures (pull key) s fun _ t => ∃ calls, Served tunnel (some key) s calls t := by
  simp only [pull, ensures_bind, ensures_self]
  split
  · next absent =>
    exact (ensures_pure _).2 ⟨[], .refl (sound.of_cons_waiting (find?_eq_none absent))⟩
  · next i hi =>
    obtain ⟨f, hf, rfl⟩ := find?_eq_some hi
    obtain ⟨inside, same⟩ := List.getElem?_eq_some_iff.1 hf
    -- The key was taken from those that wait, so that only the other flows are known to wait.
    have split' := sound.perm (List.getElem_cons_eraseIdx_perm inside).symm
    rw [same] at split'
    have live := sound.live f (same ▸ List.getElem_mem inside)
    refine ensures_onFlow hf sound ?_ (Flow.ensures_pull live.consistent live.isOpen)
    exact (split'.sublist (List.sublist_cons_self _ _)).of_cons_waiting split'.key_ne

/-- Flows end, and some of what is held for them is given up, without a word to the device. -/
structure Sheds {σ : Type} (tunnel : SocketId) (s : Scene FlowTable σ) (held : List Holding)
    (calls : List Event) (t : Scene FlowTable σ) (held' : List Holding) : Prop where
  self_eq : t.self = s.self
  out_eq : t.out = s.out
  adds : s.host.Adds calls t.host
  spares : ∀ e ∈ calls, e.Spares tunnel
  silent : Event.posted calls = []
  exchange : Exchange s.registry s.host held t.registry t.host held'

namespace Sheds

variable {σ : Type} {s t u : Scene FlowTable σ} {held held' held'' more : List Holding}
  {first second : List Event} {session : Nat}

theorem refl (s : Scene FlowTable σ) (held : List Holding) : Sheds tunnel s held [] s held :=
  ⟨rfl, rfl, .refl _, List.forall_mem_nil _, rfl, .refl _ _ _⟩

theorem trans (h : Sheds tunnel s held first t held') (h' : Sheds tunnel t held' second u held'') :
    Sheds tunnel s held (first ++ second) u held'' where
  self_eq := h'.self_eq.trans h.self_eq
  out_eq := h'.out_eq.trans h.out_eq
  adds := h.adds.trans h'.adds
  spares := List.forall_mem_append.2 ⟨h.spares, h'.spares⟩
  silent := by rw [Event.posted_append, h.silent, h'.silent, List.append_nil]
  exchange := h.exchange.trans h'.exchange

theorem frame (h : Sheds tunnel s held calls t held') (more : List Holding) :
    Sheds tunnel s (held ++ more) calls t (held' ++ more) :=
  ⟨h.self_eq, h.out_eq, h.adds, h.spares, h.silent, h.exchange.frame more⟩

theorem perm (h : Sheds tunnel s held calls t held') {left right : List Holding}
    (hl : left.Perm held) (hr : held'.Perm right) : Sheds tunnel s left calls t right :=
  ⟨h.self_eq, h.out_eq, h.adds, h.spares, h.silent, (h.exchange.perm_left hl).perm_right hr⟩

theorem note (s : Scene FlowTable σ) (held : List Holding) (notice : Notice) :
    Sheds tunnel s held [] { s with host := s.host.record (.notice notice) } held :=
  ⟨rfl, rfl, .note (.refl _) notice, List.forall_mem_nil _, rfl, .note _ _ _ notice⟩

theorem close {socket : SocketId} (s : Scene FlowTable σ) (apart : socket ≠ tunnel) :
    Sheds tunnel s [⟨socket, none⟩] [.close socket] { s with host := s.host.close socket } [] where
  self_eq := rfl
  out_eq := rfl
  adds := Host.adds_close _ _
  spares := by simpa [Event.Spares, Event.socket?] using apart
  silent := rfl
  exchange := .close _ _ _

end Sheds

theorem ensures_closeSockets {σ : Type} {s : Scene FlowTable σ}
    (apart : ∀ f ∈ flows, f.socket ≠ tunnel) :
    Ensures (closeSockets flows) s fun _ t => ∃ calls,
      Sheds tunnel s (flows.map fun f => ⟨f.socket, none⟩) calls t [] := by
  induction flows generalizing s with
  | nil => exact (ensures_pure _).2 ⟨[], .refl s []⟩
  | cons f rest ih =>
    obtain ⟨first, others⟩ := List.forall_mem_cons.1 apart
    simp only [closeSockets, ensures_bind, ensures_tell]
    refine (ih others).mono ?_
    rintro _ t ⟨calls, closed⟩
    exact ⟨_, ((Sheds.close s first).frame _).trans closed⟩

section

variable {σ : Type} [Outlet σ] {s : Scene FlowTable σ}

theorem ensures_runOn_disconnect (session : Nat) (apart : f.socket ≠ tunnel) :
    Ensures (runOn f Flow.disconnect) s fun _ t =>
      ∃ calls, Sheds tunnel s [f.holding session] calls t [⟨f.socket, none⟩] := by
  rw [ensures_runOn]
  refine Flow.ensures_disconnect.mono ?_
  rintro _ t ⟨calls, ended⟩
  have noEntry : t.self.holding session = ⟨f.socket, none⟩ := by
    simp [Flow.holding, ended.closed, ended.socket_eq]
  refine ⟨calls, rfl, ended.out_eq, ended.called.adds, ended.own.spares apart, ended.silent, ?_⟩
  exact noEntry ▸ ended.exchange session

theorem ensures_disconnectAll (session : Nat) (apart : ∀ f ∈ flows, f.socket ≠ tunnel) :
    Ensures (disconnectAll flows) s fun _ t => ∃ calls,
      Sheds tunnel s (holdings session flows) calls t (flows.map fun f => ⟨f.socket, none⟩) := by
  induction flows generalizing s with
  | nil => exact (ensures_pure _).2 ⟨[], .refl s []⟩
  | cons f rest ih =>
    obtain ⟨first, others⟩ := List.forall_mem_cons.1 apart
    rw [disconnectAll, ensures_bind]
    refine (ensures_runOn_disconnect session first).mono ?_
    rintro _ t ⟨calls, ended⟩
    refine (ih others).mono ?_
    rintro _ u ⟨more, ended'⟩
    have others := (ended'.frame [⟨f.socket, none⟩]).perm (List.perm_append_singleton _ _).symm
      (List.perm_append_singleton _ _)
    exact ⟨_, (ended.frame _).trans others⟩

theorem ensures_clear (session : Nat) (apart : ∀ f ∈ s.self.flows, f.socket ≠ tunnel) :
    Ensures clear s fun _ t => ∃ calls u,
      Sheds tunnel s (holdings session s.self.flows) calls u [] ∧
        t = { u with self := { u.self with flows := [] } } := by
  simp only [clear, ensures_bind, ensures_self]
  refine (ensures_disconnectAll session apart).mono ?_
  rintro _ t ⟨calls, ended⟩
  refine (ensures_closeSockets apart).mono ?_
  rintro _ u ⟨more, closed⟩
  exact (ensures_modifySelf _).2 ⟨_, u, ended.trans closed, rfl⟩

theorem ensures_keepUnexpired {now : Nat} (session : Nat) (apart : ∀ f ∈ flows, f.socket ≠ tunnel) :
    Ensures (keepUnexpired now flows) s fun kept t => kept.Sublist flows ∧ ∃ calls,
      Sheds tunnel s (holdings session flows) calls t (holdings session kept) := by
  induction flows generalizing s with
  | nil => exact (ensures_pure _).2 ⟨List.nil_sublist _, [], .refl s []⟩
  | cons f rest ih =>
    obtain ⟨first, others⟩ := List.forall_mem_cons.1 apart
    rw [keepUnexpired]
    split
    · rw [ensures_bind, ensures_note, ensures_bind]
      refine (ensures_runOn_disconnect session first).mono ?_
      rintro _ t ⟨calls, ended⟩
      rw [ensures_bind, ensures_tell]
      refine (ih others).mono ?_
      rintro kept u ⟨sub, more, shed⟩
      have gone := ((Sheds.note s _ (.flow f.key .expired)).trans ended).trans (.close t first)
      exact ⟨sub.cons f, _, (gone.frame _).trans shed⟩
    · simp only [ensures_bind, ensures_pure]
      refine (ih others).mono ?_
      rintro kept u ⟨sub, calls, shed⟩
      exact ⟨sub.cons_cons f, calls, (shed.frame [f.holding session]).perm
        (List.perm_append_singleton _ _).symm (List.perm_append_singleton _ _)⟩

end

theorem ensures_sweep {now : Nat} (sound : Sound tunnel s.out.waiting s.self.flows) :
    Ensures (sweep now) s fun _ t => (∃ calls, Served tunnel none s calls t) ∧ t.out = s.out := by
  simp only [sweep, ensures_bind, ensures_self]
  refine (ensures_keepUnexpired s.self.session fun f mem => (sound.live f mem).socket_ne).mono ?_
  rintro kept t ⟨sub, calls, shed⟩
  refine (ensures_modifySelf _).2 ⟨⟨calls, ?_⟩, shed.out_eq⟩
  refine ⟨by rw [shed.self_eq], by rw [shed.self_eq], ?_, ?_, shed.adds, shed.spares,
    shed.exchange, ?_, ?_⟩
  · rw [shed.out_eq]
    exact sound.sublist sub
  · exact shed.out_eq ▸ .of_silent shed.silent
  · exact fun all f mem => all f (sub.mem mem)
  · intro _ packet mem
    rw [shed.silent] at mem
    cases mem

end FlowTable

end TunnelRelay
