import TunnelRelay.Proofs.Flow.Udp.Run
import TunnelRelay.Proofs.Session.Faultless

/-!
# Stalled tunnels

As long as a tunnel takes nothing, packets for the device gather in the outbox. A flow whose packet
finds no room there keeps it and waits. Once the tunnel takes what it is given, everything that has
gathered is written.
-/

namespace TunnelRelay

open Act

/-- No write finds a result of its own: either all of them block or all go through. -/
structure Socket.Steady (blocked : Bool) (s : Socket) : Prop where
  transfers_eq : s.transfers = []
  blocked_eq : s.blocked = blocked

theorem Socket.Steady.spends {s s' : Socket} {blocked : Bool} (steady : s.Steady blocked)
    (spends : s.Spends s') : s'.Steady blocked where
  transfers_eq := by
    have less := spends.transfers_le
    rw [steady.transfers_eq] at less
    exact List.eq_nil_of_length_eq_zero (Nat.le_zero.1 less)
  blocked_eq := spends.blocked_eq.trans steady.blocked_eq

theorem Host.write_of_steady {h : Host} {id : SocketId} {blocked : Bool}
    (steady : (h.socket id).Steady blocked) (bytes : Bytes) :
    (h.write id bytes).1 = if blocked then .error .wouldBlock else .ok bytes := by
  change ((h.socket id).write bytes).1 = _
  rw [Socket.write, steady.transfers_eq, ← steady.blocked_eq]

namespace Registration

variable {α σ : Type} {s : Scene α σ} {socket : SocketId} {wanted : Option Interest}

private theorem achieves_tellPoller_of_willing (r : Registration)
    (willing : (s.host.socket socket).registrations = []) :
    Achieves (r.tellPoller socket wanted) s fun outcome t =>
      outcome = none ∧ ∃ host, t = { s with host } := by
  have registered : (s.host.socket socket).register.1 = none := by simp [Socket.register, willing]
  unfold tellPoller
  split
  · exact (achieves_call _).2 ⟨registered, _, rfl⟩
  · exact (achieves_call _).2 ⟨registered, _, rfl⟩
  · exact (achieves_call _).2 ⟨registered, _, rfl⟩
  · exact (achieves_pure _).2 ⟨rfl, _, rfl⟩

/-- A poller that has no objections learns of the new interest. -/
theorem achieves_update_of_willing (r : Registration)
    (willing : (s.host.socket socket).registrations = []) :
    Achieves (r.update socket wanted) s fun result t =>
      (∃ r', result = .ok r') ∧ ∃ host, t = { s with host } := by
  unfold update
  split
  · exact (achieves_pure _).2 ⟨⟨_, rfl⟩, _, rfl⟩
  · simp only [achieves_bind, achieves_note]
    refine Achieves.mono (r.achieves_tellPoller_of_willing ?_) ?_
    · exact willing
    · rintro _ _ ⟨rfl, host, rfl⟩
      exact (achieves_pure _).2 ⟨⟨_, rfl⟩, _, rfl⟩

end Registration

namespace UdpFlow

variable {s t : Scene UdpFlow Outbox}

/-- A datagram has arrived that the flow may receive, but its packet will find no room. -/
structure Cramped (s : Scene UdpFlow Outbox) : Prop where
  fit : s.self.Fit
  isOpen : s.self.closed = false
  free : s.self.pending = false
  willing : (s.host.socket s.self.socket).registrations = []
  arrived : ∃ datagram rest, (s.host.socket s.self.socket).arrivals = .data datagram :: rest ∧
    datagram.length ≤ s.self.reply.maxPayload ∧ s.out.ring.remaining < datagram.length

/-- The flow holds its latest packet back and waits for room. -/
structure Held (s t : Scene UdpFlow Outbox) : Prop where
  pending : t.self.pending = true
  closed_eq : t.self.closed = s.self.closed
  key_eq : t.self.key = s.self.key
  socket_eq : t.self.socket = s.self.socket
  out_eq : t.out = Outlet.await s.self.key s.out

/-- A datagram whose packet finds no room is held back. -/
theorem achieves_deliver_held {datagram : Bytes} (fit : s.self.Fit)
    (filled : s.self.reply.data.filled = s.self.reply.headers)
    (fits : datagram.length ≤ s.self.reply.maxPayload)
    (full : s.out.ring.remaining < datagram.length) :
    Achieves (deliver datagram) s fun _ t => Held s t ∧ t.host.sockets = s.host.sockets := by
  obtain ⟨started, packet, data, committed, completed, carries, -⟩ :=
    fit.equipped.deliver_isOk filled fits
  have refused : Outlet.offer packet.bytes s.out = .ok (false, s.out) := by
    obtain ⟨ipv4, transport, _, same, -⟩ := carries.parts
    refine if_pos (Nat.lt_of_lt_of_le full ?_)
    simp [same, Packet.ofParts, ← Nat.add_assoc]
  simp only [deliver, offer, await, achieves_bind, achieves_touch, achieves_self, achieves_liftM,
    achieves_say, achieves_modifySelf, achieves_get, achieves_modify, achieves_tell, achieves_pure]
  refine ⟨_, committed, _, completed, _, refused, ?_⟩
  simp only [Bool.false_eq_true, if_false, achieves_bind, achieves_say, achieves_modifySelf,
    achieves_self, achieves_modify, achieves_tell]
  exact ⟨⟨rfl, rfl, rfl, rfl, rfl⟩, rfl⟩

theorem Cramped.achieves_receiveRound (cramped : Cramped s) :
    Achieves (receiveRound ()) s fun result t => result = .again () ∧ Held s t ∧
      (t.host.socket s.self.socket).registrations = [] := by
  obtain ⟨fit, isOpen, free, willing, datagram, rest, arrived, fits, full⟩ := cramped
  obtain ⟨data, reserved, equipped, filled⟩ := fit.equipped.reserve_isOk s.self.reply.maxPayload
  rw [Nat.min_self] at reserved
  have received : ((s.host.socket s.self.socket).receive s.self.reply.maxPayload) =
      (.ok datagram, { s.host.socket s.self.socket with arrivals := rest }) := by
    simp [Socket.receive, arrived, List.take_of_length_le fits]
  have found : (s.host.receive s.self.socket s.self.reply.maxPayload).1 = .ok datagram :=
    congrArg Prod.fst received
  have left : ((s.host.receive s.self.socket s.self.reply.maxPayload).2.socket
      s.self.socket).registrations = [] := by
    rw [Host.receive, Host.socket_callSocket, received]
    exact willing
  have reads : (s.self.pending || s.self.closed) = false := by simp [free, isOpen]
  simp only [receiveRound, achieves_bind, achieves_self, reads, Bool.false_eq_true, if_false,
    achieves_liftM, achieves_modifySelf, achieves_call]
  refine ⟨_, reserved, ?_⟩
  rw [found]
  simp only [achieves_bind]
  have fit' : Fit { s.self with reply := { s.self.reply with data } } :=
    ⟨fit.sound, equipped, fun waits => absurd waits (by simp [free])⟩
  refine Achieves.mono (achieves_deliver_held fit' filled fits full) ?_
  rintro _ t ⟨⟨pending, closed_eq, key_eq, socket_eq, out_eq⟩, sockets⟩
  refine (achieves_pure _).2 ⟨rfl, ⟨pending, closed_eq, key_eq, socket_eq, out_eq⟩, ?_⟩
  rw [← left, Host.socket, sockets]
  rfl

/-- A flow that finds a datagram but no room for its packet holds the packet back. -/
theorem Cramped.achieves_onReady (cramped : Cramped s) :
    Achieves (onReady { readable := true }) s fun _ t => Held s t := by
  have receives : Achieves processReceive s fun _ t => Held s t ∧
      (t.host.socket t.self.socket).registrations = [] := by
    obtain ⟨_, rest, arrived, -, -⟩ := cramped.arrived
    simp only [processReceive, achieves_bind, achieves_get, arrived, List.length_cons, iterate]
    refine cramped.achieves_receiveRound.mono ?_
    rintro _ t ⟨rfl, held, willing⟩
    -- The packet that waits keeps the flow from receiving another datagram.
    simp only [receiveRound, achieves_bind, achieves_self, held.pending, Bool.true_or, if_true,
      achieves_pure]
    exact ⟨held, held.socket_eq ▸ willing⟩
  simp only [onReady, achieves_bind, achieves_self, cramped.isOpen, Bool.false_eq_true, if_false,
    if_true]
  refine receives.mono ?_
  rintro _ t ⟨held, willing⟩
  simp only [updateInterest, achieves_bind, achieves_self, held.closed_eq.trans cramped.isOpen,
    Bool.false_eq_true, if_false]
  refine (Registration.achieves_update_of_willing _ willing).mono ?_
  rintro _ _ ⟨⟨registration, rfl⟩, host, rfl⟩
  refine (achieves_modifySelf _).2 ?_
  exact ⟨held.pending, held.closed_eq, held.key_eq, held.socket_eq, held.out_eq⟩

end UdpFlow

/-- All other flows stay as they are. -/
theorem FlowTable.achieves_onReady_held {s : Scene FlowTable Outbox} {f : UdpFlow} {i : Nat}
    (found : s.self.find? f.key = some i) (here : s.self.flows[i]? = some (.udp f))
    (cramped : UdpFlow.Cramped { s with self := f }) :
    Achieves (onReady f.key { readable := true }) s fun _ t =>
      ∃ g, t.self = { s.self with flows := s.self.flows.set i (.udp g) } ∧ g.pending = true ∧
        g.key = f.key ∧ t.out = Outlet.await f.key s.out := by
  simp only [onReady, achieves_bind, achieves_self, found, onFlow, here, Flow.onReady,
    Flow.byProtocol, achieves_runOn, achieves_on]
  refine cramped.achieves_onReady.mono ?_
  rintro _ t ⟨pending, closed_eq, key_eq, -, out_eq⟩
  have there : (s.self.flows.set i (.udp t.self))[i]? = some (.udp t.self) := by
    rw [List.getElem?_set_self (List.getElem?_eq_some_iff.1 here).1]
  have isOpen' : (Flow.udp t.self).isClosed = false := closed_eq.trans cramped.isOpen
  simp only [achieves_modifySelf, removeIfClosed, achieves_bind, achieves_self, there, isOpen',
    Bool.false_eq_true, if_false, achieves_pure]
  exact ⟨t.self, rfl, pending, key_eq, out_eq⟩

namespace Session

variable {s t : Scene Session Unit} {f : UdpFlow} {i : Nat}

theorem achieves_flush_stuck (sound : s.self.outbox.ring.Sound)
    (stuck : (s.host.socket s.self.socket).Steady true) :
    Achieves flush s fun result t => result = .ok () ∧ ∃ host, t = { s with host } := by
  obtain ⟨front, front_eq⟩ := sound.front_isOk
  simp only [flush, flushRound, iterate, achieves_bind, achieves_get, achieves_self]
  split
  · simp only [achieves_pure]
    exact ⟨trivial, _, rfl⟩
  · simp only [achieves_bind, achieves_liftM, achieves_call]
    refine ⟨front, front_eq, ?_⟩
    have refused : (s.host.write s.self.socket front).1 = .error .wouldBlock :=
      Host.write_of_steady stuck front
    rw [refused]
    simp only [achieves_pure]
    exact ⟨trivial, _, rfl⟩

-- What holds between the writes of a tunnel that takes all it is given.
private structure Unhindered (s t : Scene Session Unit) : Prop where
  sound : t.self.outbox.ring.Sound
  free : (t.host.socket t.self.socket).Steady false
  capacity_eq : t.self.outbox.ring.capacity = s.self.outbox.ring.capacity

private theorem achieves_flushRound_free (unhindered : Unhindered s t) :
    Achieves (flushRound ()) t (Progress (fun _ => Unhindered s)
      (fun _ t => t.self.outbox.ring.length)
      (fun result t => result = .ok () ∧ t.self.outbox.ring.isEmpty = true ∧ Unhindered s t)
      t.self.outbox.ring.length) := by
  obtain ⟨sound, free, capacity_eq⟩ := unhindered
  simp only [flushRound, achieves_bind, achieves_self]
  split
  · next empty => exact (achieves_pure _).2 ⟨rfl, empty, sound, free, capacity_eq⟩
  next nonempty =>
  rw [Bool.not_eq_true] at nonempty
  obtain ⟨front, front_eq⟩ := sound.front_isOk
  have written : (t.host.write t.self.socket front).1 = .ok front := Host.write_of_steady free front
  simp only [achieves_bind, achieves_liftM, achieves_call]
  refine ⟨front, front_eq, ?_⟩
  rw [written]
  cases front with
  | nil => exact absurd (StreamRing.front_eq sound nonempty front_eq).2.1 (Nat.lt_irrefl 0)
  | cons byte bytes =>
    have less := StreamRing.length_drop_written sound nonempty front_eq written (List.cons_ne_nil _ _)
    simp only [achieves_bind, achieves_modifySelf, achieves_pure, progress_again]
    exact ⟨⟨sound.drop, free.spends ((Host.spends_write _ _ _).socket _), capacity_eq⟩, less⟩

/-- What has gathered is written once the tunnel takes what it is given. -/
theorem achieves_flush_free (sound : s.self.outbox.ring.Sound)
    (free : (s.host.socket s.self.socket).Steady false) :
    Achieves flush s fun result t => result = .ok () ∧
      t.self.outbox.ring.remaining = s.self.outbox.ring.capacity := by
  simp only [flush, achieves_bind, achieves_get]
  have flushed : Achieves (iterate (s.self.outbox.ring.length +
      (s.host.socket s.self.socket).transfers.length + 1) flushRound ()) s _ :=
    achieves_iterate (fun _ _ => achieves_flushRound_free) ⟨sound, free, rfl⟩
      (Nat.lt_succ_of_le (Nat.le_add_right _ _))
  refine flushed.mono ?_
  rintro _ t ⟨rfl, empty, sound', -, capacity_eq⟩
  have none := (StreamRing.isEmpty_iff sound').1 empty
  have whole := sound'.length_add_remaining
  rw [← StreamRing.length_toList, none] at whole
  exact ⟨rfl, by simpa using whole.trans capacity_eq⟩

/-- As long as the tunnel takes nothing and room is short, a session has nothing to do. -/
theorem achieves_afterEvent_stuck (isOpen : s.self.closed = false)
    (sound : s.self.outbox.ring.Sound) (stuck : (s.host.socket s.self.socket).Steady true)
    (short : s.self.outbox.ring.remaining < maxPacketLength)
    (asked : s.self.registration.interest = some s.self.wanted) :
    Achieves afterEvent s fun _ t => t.self = s.self := by
  have flushed : Achieves flushAndPull s fun result t => result = .ok () ∧ t.self = s.self := by
    simp only [flushAndPull, achieves_bind]
    refine (achieves_flush_stuck sound stuck).mono ?_
    rintro _ _ ⟨rfl, host, rfl⟩
    simp only [achieves_bind, achieves_get, iterate, pullRound, achieves_self, if_pos short,
      achieves_pure, and_self]
  simp only [afterEvent, achieves_bind, achieves_self, isOpen, Bool.false_eq_true, if_false]
  refine flushed.mono ?_
  rintro _ t ⟨rfl, same⟩
  simp only [updateInterest, Registration.update, same, asked, if_true, achieves_bind, achieves_self,
    achieves_pure, achieves_modifySelf]

/-- A flow of a stalled session that finds a datagram but no room for its packet holds it back. -/
theorem achieves_onFlowReady_held (fit : s.self.Fit) (isOpen : s.self.closed = false)
    (stuck : (s.host.socket s.self.socket).Steady true)
    (asked : s.self.registration.interest = some .both)
    (nonempty : s.self.outbox.ring.isEmpty = false)
    (found : s.self.table.find? f.key = some i) (here : s.self.table.flows[i]? = some (.udp f))
    (cramped : UdpFlow.Cramped { serving s with self := f }) :
    Achieves (onFlowReady f.key { readable := true }) s fun _ t => t.self.closed = false ∧
      ∃ g, t.self.table.flows = s.self.table.flows.set i (.udp g) ∧ g.pending = true ∧
        g.key = f.key ∧ t.self.outbox = Outlet.await f.key s.self.outbox := by
  have ready : Ready FlowTable.Fit (serving s) := ⟨fit.table, fit.ring⟩
  have held := FlowTable.achieves_onReady_held (s := serving s) found here cramped
  have works : Achieves (FlowTable.onReady f.key { readable := true }) (serving s) _ :=
    FlowTable.achieves_onReady FlowTable.keeps_fit (.refl ready)
  simp only [onFlowReady, achieves_bind, achieves_self, isOpen, Bool.false_eq_true, if_false]
  refine achieves_withTable.2 ((held.and works.ensures).mono ?_)
  rintro _ v ⟨⟨g, same, pending, key_eq, out_eq⟩, works⟩
  have ring : v.out.ring = s.self.outbox.ring := out_eq ▸ Outbox.ring_await _ _
  have short : v.out.ring.remaining < maxPacketLength := by
    obtain ⟨_, _, -, fits, full⟩ := cramped.arrived
    exact ring ▸ Nat.lt_of_lt_of_le full (Nat.le_trans fits (Nat.sub_le _ _))
  have asked' : s.self.registration.interest =
      some (Session.wanted { s.self with table := v.self, outbox := v.out }) := by
    rw [asked, wanted, ring, nonempty]
    rfl
  refine Achieves.mono (achieves_afterEvent_stuck isOpen works.sound
    (stuck.spends (works.spends.socket s.self.socket)) short asked') ?_
  rintro _ t same'
  rw [same']
  exact ⟨isOpen, g, congrArg FlowTable.flows same, pending, key_eq, out_eq⟩

-- The tunnel takes nothing, and a datagram has arrived for a flow.
private def besetting (h : Host) (tunnel socket : SocketId) (datagram : Bytes) : Host :=
  { h with sockets := [(tunnel, { blocked := true }), (socket, { arrivals := [.data datagram] })] }

/-- Where the outbox has less room than the longest packet of a flow takes, the flow may come to hold
such a packet back. -/
theorem Run.exists_held (run : Run s) (affordable : s.self.table.config.Affordable)
    (isOpen : s.self.closed = false) (found : s.self.table.find? f.key = some i)
    (here : s.self.table.flows[i]? = some (.udp f)) (free : f.pending = false)
    (short : s.self.outbox.ring.remaining < f.reply.maxPayload) :
    ∃ t g, Run t ∧ t.self.closed = false ∧
      t.self.table.flows = s.self.table.flows.set i (.udp g) ∧ g.pending = true ∧
      g.key = f.key ∧ t.self.outbox = Outlet.await f.key s.self.outbox := by
  have rest := run.rests.resolve_left (by simp [isOpen])
  obtain ⟨live, (apart : f.socket ≠ s.self.socket), -⟩ :=
    rest.intact.sound.live _ (List.mem_of_getElem? here)
  have nonempty := rest.intact.isEmpty_of_short (Nat.lt_of_lt_of_le short (Nat.sub_le _ _))
  have asked := rest.interest_eq_both nonempty
  obtain ⟨datagram, length⟩ : ∃ datagram : Bytes, datagram.length = f.reply.maxPayload :=
    ⟨List.replicate _ 0, List.length_replicate⟩
  obtain ⟨host, beset⟩ : ∃ host, host = besetting s.host s.self.socket f.socket datagram := ⟨_, rfl⟩
  have run' : Run { s with host } := run.world s.registry (beset ▸ ⟨rfl, Nat.le_refl _⟩)
  have tunnel : host.socket s.self.socket = { blocked := true } := by
    simp [beset, besetting, Host.socket]
  have arrived : host.socket f.socket = { arrivals := [.data datagram] } := by
    simp [beset, besetting, Host.socket, List.lookup_cons, beq_eq_false_iff_ne.2 apart]
  have fit := run'.fit affordable
  have cramped : UdpFlow.Cramped { serving { s with host } with self := f } := {
    fit := fit.table.flows _ (List.mem_of_getElem? here)
    isOpen := live
    free := free
    willing := congrArg Socket.registrations arrived
    arrived := ⟨datagram, [], congrArg Socket.arrivals arrived, Nat.le_of_eq length,
      length ▸ short⟩ }
  obtain ⟨_, t, performed, isOpen', g, flows, pending, key_eq, outbox_eq⟩ :=
    achieves_onFlowReady_held fit isOpen (tunnel ▸ ⟨rfl, rfl⟩) asked nonempty found here cramped
  have acted : Operation.perform (.flowReady f.key { readable := true }) { s with host } =
      .ok ((), t) := performed
  exact ⟨t, g, run'.act acted, isOpen', flows, pending, key_eq, outbox_eq⟩

-- A device sends a datagram and gets an answer, but its tunnel takes nothing.
private def answered : Host where
  sockets := [(0, { arrivals := [.data (UdpFlow.devicePacket [1])], blocked := true }),
    (1, { arrivals := [.data [2]] })]
  nextSocket := 1

-- Whether there is one flow, and it is as `p` says.
private def soleFlow (p : UdpFlow → Bool) : List Flow → Bool
  | [.udp f] => p f
  | _ => false

private theorem eq_of_soleFlow {p : UdpFlow → Bool} {flows : List Flow}
    (h : soleFlow p flows = true) : ∃ f, flows = [.udp f] ∧ p f = true := by
  unfold soleFlow at h
  split at h
  · exact ⟨_, rfl, h⟩
  · cases h

/-- Behind a short answer there is no room for a packet of the greatest length. -/
theorem exists_run_held : ∃ (s : Scene Session Unit) (f : UdpFlow), Run s ∧
    s.self.closed = false ∧ s.self.table.flows = [.udp f] ∧ f.pending = true ∧
    s.self.outbox.waiting = [f.key] := by
  obtain ⟨s, run, ends⟩ := exists_run_of_enacts
    (p := fun s => !s.self.closed && s.self.table.config == { tunnelCapacity := maxPacketLength } &&
      s.self.outbox.waiting == [] && soleFlow (fun f => !f.pending &&
        s.self.outbox.ring.remaining < f.reply.maxPayload) s.self.table.flows)
    (show Config.check { tunnelCapacity := maxPacketLength } = .ok () from rfl) (by decide)
    (show enacts _ answered [.ready { readable := true },
      .flowReady ⟨.udp, ⟨0x0a000002, 0xa028⟩, ⟨0x08080808, 53⟩⟩ { readable := true }] _ = true by
        decide +kernel)
  simp only [Bool.and_eq_true, Bool.not_eq_true', beq_iff_eq] at ends
  obtain ⟨⟨⟨isOpen, config⟩, nobody⟩, sole⟩ := ends
  obtain ⟨f, alone, flow⟩ := eq_of_soleFlow sole
  simp only [Bool.and_eq_true, Bool.not_eq_true', decide_eq_true_eq] at flow
  have affordable : s.self.table.config.Affordable := config ▸ ⟨by decide, by decide, by decide⟩
  have found : s.self.table.find? f.key = some 0 := by simp [FlowTable.find?, alone, Flow.key]
  have here : s.self.table.flows[0]? = some (.udp f) := by
    rw [alone]
    rfl
  obtain ⟨t, g, run', isOpen', flows, pending, key_eq, outbox_eq⟩ :=
    run.exists_held affordable isOpen found here flow.1 flow.2
  refine ⟨t, g, run', isOpen', ?_, pending, ?_⟩
  · rw [flows, alone]
    rfl
  · rw [outbox_eq, key_eq]
    simp [Outlet.await, nobody]

end Session

end TunnelRelay
