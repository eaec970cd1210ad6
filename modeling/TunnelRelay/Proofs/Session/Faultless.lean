import TunnelRelay.Proofs.Feeding
import TunnelRelay.Proofs.Session.Draining

/-!
# Sessions stop at no fault

Whatever a session can get into, it does what it is asked to do and comes to an end of it. Packets may
declare what they like: what is read of them was checked when they were judged. The flows that wait
are asked to go on no more often than the budget admits.
-/

namespace TunnelRelay

open Act

namespace Framing

variable {σ : Type} {s : Scene Framing σ}

theorem achieves_look (sound : s.self.Sound) : Achieves look s fun prospect t =>
    prospect = .of s.self.held ∧ ∃ host, t = { s with host } ∧ s.host.Spends host := by
  simp only [look, achieves_bind, achieves_self, achieves_liftM]
  refine ⟨_, prospect_eq sound, ?_⟩
  split
  · simp only [achieves_bind, achieves_note, achieves_pure]
    exact ⟨trivial, _, rfl, Host.spends_record _ _⟩
  · exact (achieves_pure _).2 ⟨rfl, _, rfl, .refl _⟩

theorem achieves_next (sound : s.self.Sound) : Achieves next s fun result t =>
    (∃ host, t = { s with host } ∧ s.host.Spends host) ∧ (result = .ok none → s.self.Drained) ∧
      ∀ p, result = .ok (some p) →
        ∃ n, Prospect.of s.self.held = .packet n ∧ Packet.ofBytes (s.self.held.take n) = .ok p := by
  rw [next, achieves_bind]
  refine (achieves_look sound).mono ?_
  rintro _ _ ⟨rfl, host, rfl, spends⟩
  cases seen : Prospect.of s.self.held with
  | unknown | incomplete =>
    refine (achieves_pure _).2 ⟨⟨_, rfl, spends⟩, fun _ => ⟨?_, ?_⟩, ?_⟩ <;> simp [seen]
  | corrupt => exact (achieves_pure _).2 ⟨⟨_, rfl, spends⟩, by simp, by simp⟩
  | packet n =>
    obtain ⟨whole, fits⟩ := whole_of_prospect seen
    obtain ⟨p, parsed, -⟩ := whole.ofBytes_eq
    simp only [achieves_bind, achieves_self, achieves_liftM, achieves_pure]
    refine ⟨_, sound.read_eq fits, p, parsed, ⟨_, rfl, spends⟩, by simp, ?_⟩
    rintro _ ⟨⟩
    exact ⟨n, rfl, parsed⟩

end Framing

namespace Session

structure Fit (s : Session) : Prop where
  table : s.table.Fit
  ring : s.outbox.ring.Sound
  framing : s.framing.Sound

/-- The session is fit after it has acted within the budget. -/
structure Lasts (s t : Scene Session Unit) : Prop where
  fit : t.self.Fit
  spends : s.host.Spends t.host
  budget_le : (serving t).budget ≤ (serving s).budget
  socket_eq : t.self.socket = s.self.socket

variable {s t u : Scene Session Unit}

namespace Lasts

theorem refl (fit : s.self.Fit) : Lasts s s := ⟨fit, .refl _, Nat.le_refl _, rfl⟩

theorem trans (h : Lasts s t) (h' : Lasts t u) : Lasts s u :=
  ⟨h'.fit, h.spends.trans h'.spends, Nat.le_trans h'.budget_le h.budget_le,
    h'.socket_eq.trans h.socket_eq⟩

theorem call {session : Session} {registry : Registry} {host : Host} (h : Lasts s t)
    (fit : session.Fit) (waiting : session.outbox.waiting = t.self.outbox.waiting)
    (socket : session.socket = t.self.socket) (spends : t.host.Spends host) :
    Lasts s ⟨session, registry, (), host⟩ := by
  refine ⟨fit, h.spends.trans spends, Nat.le_trans ?_ h.budget_le, socket.trans h.socket_eq⟩
  simp only [Scene.budget, serving, waiting]
  exact Nat.add_le_add_left spends.unread_le _

theorem record {event : Event} (h : Lasts s t) :
    Lasts s { t with host := t.host.record event } :=
  h.call h.fit rfl rfl (Host.spends_record _ _)

end Lasts

/-- A session lasts while its flows act within the budget. -/
theorem Lasts.withTable {β : Type} {act : Act FlowTable Outbox β} (lasts : Lasts s t)
    (acts : Works FlowTable.Fit (serving t) (serving t) →
      Achieves act (serving t) fun _ v => Works FlowTable.Fit (serving t) v) :
    Achieves (withTable act) t fun _ u => Lasts s u ∧ u.self.framing = t.self.framing := by
  refine achieves_withTable.2 ((acts (.refl ⟨lasts.fit.table, lasts.fit.ring⟩)).mono ?_)
  intro _ v works
  refine ⟨lasts.trans ⟨⟨works.fit, works.sound, lasts.fit.framing⟩, works.spends, ?_, rfl⟩, rfl⟩
  exact works.budget_le

theorem achieves_close (lasts : Lasts s t) : Achieves close t fun _ u => Lasts s u := by
  simp only [close, achieves_bind, achieves_self]
  split
  · exact (achieves_pure _).2 lasts
  simp only [achieves_bind, achieves_modifySelf]
  refine (Registration.achieves_cancel _ _).mono ?_
  rintro registration _ ⟨registry, host, rfl, spends⟩
  have cancelled : Lasts s ⟨{ t.self with closed := true, registration }, registry, (), host⟩ :=
    lasts.call ⟨lasts.fit.table, lasts.fit.ring, lasts.fit.framing⟩ rfl rfl spends
  simp only [achieves_say]
  refine (cancelled.withTable FlowTable.achieves_clear).mono ?_
  rintro _ u ⟨lasts, -⟩
  refine lasts.trans ⟨⟨lasts.fit.table, lasts.fit.ring, lasts.fit.framing⟩,
    Host.spends_record _ _, ?_, rfl⟩
  exact Nat.add_le_add_right (Nat.zero_le _) _

private def unrouted (s : Scene Session Unit) : Nat := s.self.framing.held.length

private theorem achieves_routeRound (lasts : Lasts s t) :
    Achieves (routeRound ()) t (Progress (fun _ => Lasts s) (fun _ => unrouted)
      (fun result u => Lasts s u ∧ (result = .ok () → u.self.framing.Drained)) (unrouted t)) := by
  simp only [routeRound, withFraming, achieves_bind, achieves_on]
  refine (Framing.achieves_next lasts.fit.framing).mono ?_
  rintro (failure | found) _ ⟨⟨host, rfl, spends⟩, drained, packet⟩
  · exact (achieves_pure _).2 ⟨lasts.call lasts.fit rfl rfl spends, nofun⟩
  cases found with
  | none => exact (achieves_pure _).2 ⟨lasts.call lasts.fit rfl rfl spends, fun _ => drained rfl⟩
  | some p =>
    obtain ⟨n, seen, parsed⟩ := packet p rfl
    have looked : Lasts s { t with host } := lasts.call lasts.fit rfl rfl spends
    simp only [achieves_bind]
    refine (looked.withTable fun works => FlowTable.achieves_send works parsed).mono ?_
    rintro _ u ⟨lasts, same⟩
    have sound : ({ u with self := u.self.framing } : Scene Framing Unit).self.Sound :=
      lasts.fit.framing
    have seen' : Prospect.of u.self.framing.held = .packet n := same ▸ seen
    obtain ⟨whole, fits⟩ := whole_of_prospect seen'
    obtain ⟨sound', held⟩ := sound.drop fits
    refine achieves_on.2 ⟨_, _, Framing.consume_eq sound seen', (achieves_pure _).2 ⟨?_, ?_⟩⟩
    · exact lasts.call ⟨lasts.fit.table, lasts.fit.ring, sound'⟩ rfl rfl (.refl _)
    · have some := whole.complete
      rw [List.length_take_of_le fits] at some
      change (u.self.framing.drop n).held.length < t.self.framing.held.length
      rw [held, List.length_drop]
      rw [← show u.self.framing = t.self.framing from same]
      exact Nat.sub_lt (Nat.lt_of_lt_of_le (Nat.lt_of_lt_of_le (by decide) some) fits)
        (Nat.lt_of_lt_of_le (by decide) some)

theorem achieves_routePackets (lasts : Lasts s t) : Achieves routePackets t fun result u =>
    Lasts s u ∧ (result = .ok () → u.self.framing.Drained) := by
  simp only [routePackets, achieves_bind, achieves_self]
  refine achieves_iterate (fun _ _ => achieves_routeRound) lasts ?_
  rw [unrouted, Framing.length_held]
  exact Nat.lt_succ_self _

private def unread (s : Scene Session Unit) : Nat := (s.host.socket s.self.socket).unread

private theorem achieves_readRound (lasts : Lasts s t) (drained : t.self.framing.Drained) :
    Achieves (readRound ()) t (Progress (fun _ u => Lasts s u ∧ u.self.framing.Drained)
      (fun _ => unread) (fun _ => Lasts s) (unread t)) := by
  have room := lasts.fit.framing.room_eq drained.partial.length_lt
  have read : Lasts s { t with host := (t.host.read t.self.socket
      (maxPacketLength - t.self.framing.held.length)).2 } :=
    lasts.call lasts.fit rfl rfl (Host.spends_read _ _ _)
  have ends {notice : SessionNotice} {u : Scene Session Unit} (lasts : Lasts s u) :
      Achieves (do say notice; close; return .done ()) u (Progress
        (fun _ u => Lasts s u ∧ u.self.framing.Drained) (fun (_ : Unit) => unread)
        (fun (_ : Unit) => Lasts s) (unread t)) := by
    simp only [achieves_bind, achieves_say]
    exact (achieves_close lasts.record).mono fun _ _ lasts => (achieves_pure _).2 lasts
  simp only [readRound, achieves_bind, achieves_self, achieves_liftM, achieves_call]
  refine ⟨_, room, ?_⟩
  split
  · exact ends read
  · next bytes nonempty hr =>
    have fits : t.self.framing.held.length + bytes.length ≤ maxPacketLength := by
      have size := Host.length_read_le hr
      have := drained.partial.length_lt
      omega
    have sound := (lasts.fit.framing.append fits).1
    have less := (Host.unread_read_lt hr nonempty).1
    have fit : Fit { t.self with framing := t.self.framing.append bytes } :=
      ⟨lasts.fit.table, lasts.fit.ring, sound⟩
    simp only [achieves_bind, achieves_modifySelf]
    refine (achieves_routePackets (.refl fit)).mono ?_
    rintro (failure | _) u ⟨routed, drained⟩
    · exact ends ((read.call fit rfl rfl (.refl _)).trans routed)
    · refine (achieves_pure _).2 ⟨⟨(read.call fit rfl rfl (.refl _)).trans routed, drained rfl⟩, ?_⟩
      change unread u < unread t
      rw [unread, routed.socket_eq]
      exact Nat.lt_of_le_of_lt (routed.spends.socket t.self.socket).unread_le less
  · exact (achieves_pure _).2 read
  · next hr =>
    exact (achieves_pure _).2 ⟨⟨read, drained⟩, (Host.arrivals_read_lt hr (by decide)).2⟩
  · exact ends read

theorem achieves_processReceive (lasts : Lasts s t) (drained : t.self.framing.Drained) :
    Achieves processReceive t fun _ u => Lasts s u := by
  simp only [processReceive, achieves_bind, achieves_get]
  exact achieves_iterate (I := fun _ u => Lasts s u ∧ u.self.framing.Drained)
    (fun _ _ h => achieves_readRound h.1 h.2) ⟨lasts, drained⟩ (Nat.lt_succ_self _)

theorem achieves_flushAndPull (lasts : Lasts s t) :
    Achieves flushAndPull t fun _ u => Lasts s u := by
  have ready : Ready FlowTable.Fit (serving t) := ⟨lasts.fit.table, lasts.fit.ring⟩
  refine (empties_flushAndPull FlowTable.keeps_fit ready).mono ?_
  rintro _ u ⟨works, socket_eq, framing_eq⟩
  refine lasts.trans ⟨⟨works.fit, works.sound, ?_⟩, works.spends, works.budget_le, socket_eq⟩
  exact framing_eq ▸ lasts.fit.framing

theorem achieves_updateInterest (lasts : Lasts s t) :
    Achieves updateInterest t fun _ u => Lasts s u := by
  simp only [updateInterest, achieves_bind, achieves_self]
  refine (Registration.achieves_update _ _ _).mono ?_
  rintro (kind | registration) _ ⟨host, rfl, spends⟩
  · simp only [achieves_bind, achieves_say]
    exact achieves_close (lasts.call lasts.fit rfl rfl spends).record
  · refine (achieves_modifySelf _).2 (lasts.call ?_ rfl rfl spends)
    exact ⟨lasts.fit.table, lasts.fit.ring, lasts.fit.framing⟩

theorem achieves_afterEvent (lasts : Lasts s t) : Achieves afterEvent t fun _ u => Lasts s u := by
  simp only [afterEvent, achieves_bind, achieves_self]
  split
  · exact (achieves_pure _).2 lasts
  rw [achieves_bind]
  refine (achieves_flushAndPull lasts).mono ?_
  rintro (failure | _) u lasts
  · simp only [achieves_bind, achieves_say]
    exact achieves_close lasts.record
  · exact achieves_updateInterest lasts

/-- Whatever an open session that has routed all packets is asked to do, it does. -/
theorem achieves_perform {operation : Operation} (lasts : Lasts s t)
    (drained : t.self.closed = false → t.self.framing.Drained) :
    Achieves operation.perform t fun _ u => Lasts s u := by
  cases operation with
  | ready readiness =>
    simp only [Operation.perform, onReady, achieves_bind, achieves_self]
    split
    · exact (achieves_pure _).2 lasts
    next isOpen =>
    rw [Bool.not_eq_true] at isOpen
    split
    · rw [achieves_bind]
      refine (achieves_processReceive lasts (drained isOpen)).mono ?_
      exact fun _ _ => achieves_afterEvent
    · exact achieves_afterEvent lasts
  | flowReady key readiness =>
    simp only [Operation.perform, onFlowReady, achieves_bind, achieves_self]
    split
    · exact (achieves_pure _).2 lasts
    rw [achieves_bind]
    refine (lasts.withTable (FlowTable.achieves_onReady FlowTable.keeps_fit)).mono ?_
    exact fun _ _ served => achieves_afterEvent served.1
  | sweep now =>
    simp only [Operation.perform, sweep, achieves_bind, achieves_self]
    split
    · exact (achieves_pure _).2 lasts
    · exact (lasts.withTable FlowTable.achieves_sweep).mono fun _ _ served => served.1

/-- A session can be started, unless the host refuses to. -/
theorem achieves_start {α : Type} {id : Nat} {socket : SocketId} {config : Config}
    {s : Scene α Unit} (affordable : config.Affordable) :
    Achieves (start id socket config) s fun result t =>
      (∃ registry host, t = { s with registry, host } ∧ s.host.Spends host) ∧
        ∀ session, result = .ok session → session.Fit := by
  simp only [start, achieves_bind]
  refine (Registration.achieves_enter _ _ _).mono ?_
  rintro (kind | registration) _ ⟨registry, host, rfl, spends⟩
  · simp only [achieves_bind, achieves_tell, achieves_pure]
    refine ⟨⟨_, _, rfl, spends.trans (Host.spends_close _ _)⟩, ?_⟩
    rintro _ ⟨⟩
  · obtain ⟨ring, made⟩ := StreamRing.ofCapacity_isOk affordable.tunnel
    simp only [achieves_bind, achieves_note, achieves_liftM, achieves_pure]
    refine ⟨ring, made, ⟨_, _, rfl, spends.trans (Host.spends_record _ _)⟩, ?_⟩
    rintro _ ⟨⟩
    exact ⟨⟨affordable, List.forall_mem_nil _⟩, StreamRing.sound_of_ofCapacity made,
      Framing.sound_empty⟩

theorem Run.drained (run : Run s) (isOpen : s.self.closed = false) : s.self.framing.Drained :=
  (run.rests.resolve_left (by simp [isOpen])).intact.drained

/-- The parts of a session stay fit, if a machine can provide its buffers. -/
theorem Run.fit (run : Run s) (affordable : s.self.table.config.Affordable) : s.self.Fit := by
  induction run with
  | @start _ id socket config s t session _ _ started =>
    rw [table_of_start started] at affordable
    exact ((achieves_start affordable).ensures _ _ started).2 session rfl
  | world _ _ _ ih => exact ih affordable
  | @act s t run operation performed ih =>
    obtain ⟨coherent, rests⟩ := run.coherent_rests
    obtain ⟨⟨_, path⟩, -⟩ := Operation.settles coherent rests _ _ performed
    have fit := ih ((path.leads coherent).same.config_eq ▸ affordable)
    exact ((achieves_perform (.refl fit) run.drained).ensures _ _ performed).fit

/-- With buffers that a machine can provide a session can always be started, and whatever it is asked
to do in whatever it has got into, it does: no check on the way fails, no index leaves its row and no
number is too large for its field. Loops go on for as long as a socket has something to give or takes
what it is given, which is never for ever. -/
theorem faultless {config : Config} (affordable : config.Affordable) :
    (∀ {α : Type} (id : Nat) (socket : SocketId) (s : Scene α Unit),
      ∃ result t, start id socket config s = .ok (result, t)) ∧
    ∀ {s : Scene Session Unit}, Run s → s.self.table.config = config →
      (∀ operation : Operation, ∃ t, operation.perform s = .ok ((), t)) ∧
        ∃ t, close s = .ok ((), t) := by
  refine ⟨fun id socket s => ?_, fun {s} run same => ⟨fun operation => ?_, ?_⟩⟩
  · have starts : Achieves (start id socket config) s _ := achieves_start affordable
    obtain ⟨result, t, started, -⟩ := starts
    exact ⟨result, t, started⟩
  · exact (achieves_perform (.refl (run.fit (same ▸ affordable))) run.drained).ends
  · exact (achieves_close (.refl (run.fit (same ▸ affordable)))).ends

-- A device sends a packet whose header claims to be longer than the packet, and asks for a
-- connection.
private def visited : Host where
  sockets := [(0, { arrivals := [
    .data ([0x4f, 0, 0, 20] ++ List.replicate 16 0),
    .data (TcpFlow.devicePacket .syn 0x110 0 [])] })]
  nextSocket := 1

theorem faultless_visited : ∃ s : Scene Session Unit, Run s ∧ s.self.table.flows.length = 1 ∧
    (∀ operation : Operation, ∃ t, operation.perform s = .ok ((), t)) ∧
    ∃ t, close s = .ok ((), t) := by
  have enacted : enacts {} visited [.ready { readable := true }]
      (fun s => s.self.table.flows.length == 1 && s.self.table.config == {}) = true := by
    decide +kernel
  obtain ⟨s, run, ends⟩ := exists_run_of_enacts rfl (by decide) enacted
  simp only [Bool.and_eq_true, beq_iff_eq] at ends
  have affordable : Config.Affordable {} := ⟨by decide, by decide, by decide⟩
  obtain ⟨performs, closes⟩ := (faultless affordable).2 run ends.2
  exact ⟨s, run, ends.1, performs, closes⟩

/-- Every check lets it pass, but no machine can provide the ring of a TCP flow. -/
def vast : Config := { streamCapacity := 0xffffffffffffffff }

theorem not_faultless : vast.check = .ok () ∧ ∃ s : Scene Session Unit, Run s ∧
    s.self.table.config = vast ∧
    Operation.perform (.ready { readable := true }) s = .error .oversize := by
  have enacted : enacts vast visited [] (fun s => s.self.table.config == vast &&
      match Operation.perform (.ready { readable := true }) s with
      | .error fault => fault == .oversize
      | .ok _ => false) = true := by
    decide +kernel
  obtain ⟨s, run, ends⟩ := exists_run_of_enacts rfl (by decide) enacted
  simp only [Bool.and_eq_true, beq_iff_eq] at ends
  obtain ⟨same, stops⟩ := ends
  refine ⟨rfl, s, run, same, ?_⟩
  split at stops
  · next fault failed => rw [failed, beq_iff_eq.1 stops]
  · cases stops

end Session

end TunnelRelay
