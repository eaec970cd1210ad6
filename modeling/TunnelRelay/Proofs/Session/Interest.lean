import Mathlib.Data.Fintype.EquivFin
import TunnelRelay.Proofs.Flow.Tcp.Interest
import TunnelRelay.Proofs.Flow.Udp.Interest
import TunnelRelay.Proofs.Session.Trace

/-!
# What the poller is asked to watch

The poller knows what the registration of a tunnel says, and between events that is what the session
waits for: the tunnel's being readable, and also its being writable as long as the outbox holds
anything. A session that the poller refuses ends. Flows keep to the same.
-/

namespace TunnelRelay

open Act

namespace Flow

variable {σ : Type} {s : Scene Flow σ}

theorem ensures_disconnect_handlers :
    Ensures disconnect s fun _ t => t.registry.handlers ⊆ s.registry.handlers := by
  apply ensures_byProtocol
  · rintro s rfl
    by_cases closed : s.self.phase = .closed
    · exact TcpFlow.ensures_close_of_closed closed (List.Subset.refl _)
    · exact TcpFlow.ensures_close closed fun _ _ _ _ _ => Registry.handlers_erase_subset _
  · rintro s rfl
    cases closed : s.self.closed with
    | true =>
      simp only [UdpFlow.disconnect, ensures_bind, ensures_self, if_pos closed, ensures_pure]
      exact List.Subset.refl _
    | false =>
      exact UdpFlow.ensures_disconnect_of_open closed fun _ _ _ _ _ =>
        Registry.handlers_erase_subset _

end Flow

namespace FlowTable

variable {σ : Type} {flows : List Flow} {s : Scene FlowTable σ}

theorem ensures_disconnectAll_handlers :
    Ensures (disconnectAll flows) s fun _ t => t.registry.handlers ⊆ s.registry.handlers := by
  induction flows generalizing s with
  | nil => exact (ensures_pure _).2 (List.Subset.refl _)
  | cons f rest ih =>
    rw [disconnectAll, ensures_bind, ensures_runOn]
    refine Flow.ensures_disconnect_handlers.mono fun _ t fewer => ?_
    exact ih.mono fun _ _ fewer' => List.Subset.trans fewer' fewer

theorem ensures_closeSockets_registry :
    Ensures (closeSockets flows) s fun _ t => t.registry = s.registry := by
  induction flows generalizing s with
  | nil => exact (ensures_pure _).2 rfl
  | cons f rest ih =>
    rw [closeSockets, ensures_bind, ensures_tell]
    exact ih

/-- Ending flows makes no new entries. -/
theorem ensures_clear_handlers :
    Ensures clear s fun _ t => t.registry.handlers ⊆ s.registry.handlers := by
  simp only [clear, ensures_bind, ensures_self]
  refine ensures_disconnectAll_handlers.mono fun _ t fewer => ?_
  refine ensures_closeSockets_registry.mono fun _ u same => ?_
  exact (ensures_modifySelf _).2 (same ▸ fewer)

end FlowTable

namespace Session

variable {s t : Scene Session Unit} {deeds : List Deed}

/-- What the poller learns when a session ends. -/
structure Departs (s : Scene Session Unit) (calls : List Event) (t : Scene Session Unit) : Prop where
  adds : s.host.Adds calls t.host
  learned (apart : ∀ f ∈ s.self.table.flows, f.socket ≠ s.self.socket) :
    Event.learnAll? s.self.socket s.self.registration.interest calls =
      some t.self.registration.interest
  closed : t.self.closed = true
  gone : t.registry.get? s.self.registration.token = none

theorem departs_close (isOpen : s.self.closed = false) :
    Ensures close s fun _ t => ∃ calls, Departs s calls t := by
  simp only [close, ensures_bind, ensures_self]
  rw [if_neg (by simp [isOpen])]
  simp only [ensures_bind, ensures_modifySelf]
  -- The flows are cleared after the tunnel is deregistered, with no call on a socket apart from theirs.
  have cleared {registration : Registration} {call : Option Event} {host : Host}
      (cancels : s.self.registration.Cancels s.self.socket registration call)
      (called : s.host.After call.toList host) :
      Ensures FlowTable.clear
        ⟨s.self.table, s.registry.erase s.self.registration.token, s.self.outbox, host⟩ fun _ v =>
          ∃ calls, Departs s calls ⟨{ s.self with
            closed := true
            registration
            table := v.self
            outbox := { v.out with waiting := [] } }, v.registry, (),
            v.host.record (.notice (.session s.self.id .closed))⟩ := by
    intro _ v ran
    have sheds (tunnel : SocketId) (apart : ∀ f ∈ s.self.table.flows, f.socket ≠ tunnel) :
        ∃ calls, host.Adds calls v.host ∧ ∀ e ∈ calls, e.Spares tunnel := by
      obtain ⟨calls, _, shed, rfl⟩ := FlowTable.ensures_clear s.self.id apart _ _ ran
      exact ⟨calls, shed.adds, shed.spares⟩
    obtain ⟨tunnel, unused⟩ :=
      Infinite.exists_notMem_finset (s.self.table.flows.map Flow.socket).toFinset
    obtain ⟨calls, adds, -⟩ := sheds tunnel fun f mem same =>
      unused (List.mem_toFinset.2 (List.mem_map.2 ⟨f, mem, same⟩))
    refine ⟨_, called.adds.trans (adds.note _), fun apart => ?_, rfl, ?_⟩
    · obtain ⟨calls', adds', spares⟩ := sheds _ apart
      obtain rfl := adds.unique adds'
      exact Event.learnAll?_append cancels.learnAll? (Event.learnAll?_of_spares spares)
    · exact Registry.get?_eq_none_of_subset (FlowTable.ensures_clear_handlers _ _ ran)
  apply Registration.ensures_cancel
  · intro host unknown called
    simp only [ensures_withTable, ensures_say]
    exact cleared (.unknown unknown) called
  · intro outcome host known called
    simp only [ensures_withTable, ensures_say]
    exact cleared (.known known outcome) called

/-- The poller is only told what fits, and knows what the registration says afterwards. -/
theorem Move.learnAll? {deed : Deed} (coherent : Coherent s) (move : Move s deed t) :
    Event.learnAll? s.self.socket s.self.registration.interest (deed.calls s.self.socket) =
      some t.self.registration.interest := by
  cases move with
  | read =>
    rw [Deed.calls, Event.learnAll?_singleton]
    change some s.self.registration.interest = some (s.self.received _).registration.interest
    unfold received
    split <;> rfl
  | wrote =>
    rw [Deed.calls, Event.learnAll?_singleton]
    change some s.self.registration.interest = some (s.self.relieved _).registration.interest
    unfold relieved
    split <;> rfl
  | told _ _ changed _ =>
    rw [Deed.calls, Event.learnAll?_singleton]
    exact Registration.learn?_pollerCall changed _
  | @served _ task due v ran calls adds =>
    refine (Event.learnAll?_of_spares (Task.served coherent due ran adds).spares).trans ?_
    exact congrArg some (congrArg _ (Task.takes due).registration_eq.symm)
  | closed isOpen _ ran adds =>
    obtain ⟨calls, departs⟩ := departs_close isOpen _ _ ran
    rw [Deed.calls, adds.unique departs.adds]
    exact departs.learned fun f mem => (coherent.sound.live f mem).socket_ne

theorem Trace.learnAll? (trace : Trace deeds s) :
    Event.learnAll? s.self.socket (some .readable) (calls s.self.socket deeds) =
      some s.self.registration.interest := by
  let Learned (deeds : List Deed) (s : Scene Session Unit) : Prop := Coherent s ∧
    Event.learnAll? s.self.socket (some .readable) (calls s.self.socket deeds) =
      some s.self.registration.interest
  suffices Learned deeds s from this.2
  induction trace with
  | start checked opened started =>
    obtain ⟨_, starts⟩ := ensures_start (Config.check_eq_ok_iff.1 checked) opened _ _ started
    obtain ⟨-, -, -, -, empty⟩ := starts.fresh rfl
    have rests := starts.rests rfl
    refine ⟨rests.intact.toCoherent, ?_⟩
    have none := (StreamRing.isEmpty_iff rests.intact.ring).2 empty
    rw [rests.interest, wanted, if_pos none]
    rfl
  | world _ registry undisturbed ih =>
    exact ⟨ih.1.world registry undisturbed.nextSocket_le, ih.2⟩
  | act _ _ path ih =>
    refine path.induct (I := Learned) ?_ ?_ _ ih
    · rintro deeds s host ⟨coherent, learned⟩ called
      exact ⟨coherent.world _ called.adds.nextSocket_le, learned⟩
    · rintro deeds s deed t ⟨coherent, learned⟩ move
      refine ⟨move.coherent coherent, ?_⟩
      rw [calls_append, (move.same coherent).socket_eq]
      refine Event.learnAll?_append learned ?_
      simpa [calls] using move.learnAll? coherent

/-- The poller knows what an open session waits for, and has only been told what fits. -/
structure Mirrored (deeds : List Deed) (s : Session) : Prop where
  learned : Event.learnAll? s.socket (some .readable) (calls s.socket deeds) =
    some s.registration.interest
  interest_eq : s.closed = false →
    s.registration.interest = Interest.of? true (!s.outbox.ring.toList.isEmpty)

theorem Trace.mirrored (trace : Trace deeds s) : Mirrored deeds s.self := by
  refine ⟨trace.learnAll?, fun isOpen => ?_⟩
  have rests := trace.run.rests.resolve_left (by simp [isOpen])
  have empty : s.self.outbox.ring.isEmpty = s.self.outbox.ring.toList.isEmpty := by
    rw [Bool.eq_iff_iff, StreamRing.isEmpty_iff rests.intact.ring, List.isEmpty_iff]
  rw [rests.interest, wanted, empty]
  cases s.self.outbox.ring.toList.isEmpty <;> rfl

/-- A session tells the poller what it waits for. If the poller refuses, the session ends and has no
entry among the handlers any more. -/
theorem ensures_updateInterest (isOpen : s.self.closed = false) :
    Ensures updateInterest s fun _ t => ∃ calls, s.host.Adds calls t.host ∧
      ((∃ e ∈ calls, e.isRefusal = true) → t.self.closed = true ∧
        t.registry.get? s.self.registration.token = none) := by
  simp only [updateInterest, ensures_bind, ensures_self]
  apply Registration.ensures_update
  · intro _
    refine (ensures_modifySelf _).2 ⟨[], .refl _, ?_⟩
    rintro ⟨_, mem, -⟩
    cases mem
  · intro _ host called
    refine (ensures_modifySelf _).2 ⟨_, called.adds, ?_⟩
    rintro ⟨e, mem, refused⟩
    rw [List.mem_singleton.1 mem, Registration.isRefusal_pollerCall] at refused
    cases refused
  · intro _ kind host called
    simp only [ensures_bind, ensures_say]
    refine (departs_close ?_).mono ?_
    · exact isOpen
    · rintro _ t ⟨calls, departs⟩
      exact ⟨_, (called.note _).adds.trans departs.adds, fun _ => ⟨departs.closed, departs.gone⟩⟩

/-- Whatever comes of starting a session, the poller is only told what fits. -/
theorem introduces_start {α : Type} {id : Nat} {socket : SocketId} {config : Config}
    {s : Scene α Unit} : Ensures (start id socket config) s fun result t =>
      ∃ calls, s.host.Adds calls t.host ∧ Introduces s.registry calls t.registry
        (result.map fun session => (session.socket, session.registration)) := by
  simp only [start, ensures_bind]
  apply Registration.ensures_enter
  · intro host called
    simp only [ensures_bind, ensures_note, ensures_liftM, ensures_pure]
    exact fun ring _ => ⟨_, (called.note _).adds, .known (by simp [Event.learnAll?, Event.learn?])⟩
  · intro kind host called
    simp only [ensures_bind, ensures_tell, ensures_pure]
    exact ⟨_, called.adds.trans (Host.adds_close _ _),
      .failed (Registry.handlers_erase_insert_subset _)⟩

end Session

/-- Registered interest mirrors what is wanted. Whatever a flow or a session does, and whichever calls
the poller refuses, it is told of a socket only what fits what it knows: what it does not know is
registered, and only what it knows is registered again or deregistered. In the end it knows what the
registration says, which for an open owner is what the owner waits for. A flow that the poller refuses
has ended at the end of the operation, and a session at the end of the update; they have no entry
among the handlers any more. -/
theorem interest_mirrored {σ : Type} [Outlet σ] :
    (∀ (journal : List TcpFlow.Step) (s : Scene TcpFlow σ), TcpFlow.Run journal s →
      TcpFlow.Mirrored journal s.self ∧
      ∀ (operation : TcpFlow.Operation) (t : Scene TcpFlow σ), operation.perform s = .ok ((), t) →
        ∃ steps, TcpFlow.Run (journal ++ steps) t ∧
          t.host.calls = (TcpFlow.calls steps).reverse ++ s.host.calls ∧
          ((∃ e ∈ TcpFlow.calls steps, e.isRefusal = true) → t.self.phase = .closed ∧
            t.registry = s.registry.erase s.self.registration.token)) ∧
    (∀ (journal : List UdpFlow.Step) (s : Scene UdpFlow σ), UdpFlow.Run journal s →
      UdpFlow.Mirrored journal s.self ∧
      ∀ (operation : UdpFlow.Operation) (t : Scene UdpFlow σ), operation.perform s = .ok ((), t) →
        ∃ steps, UdpFlow.Run (journal ++ steps) t ∧
          t.host.calls = (UdpFlow.calls steps).reverse ++ s.host.calls ∧
          ((∃ e ∈ UdpFlow.calls steps, e.isRefusal = true) → t.self.closed = true ∧
            t.registry = s.registry.erase s.self.registration.token)) ∧
    (∀ (deeds : List Session.Deed) (s : Scene Session Unit), Session.Trace deeds s →
      Session.Mirrored deeds s.self ∧
      ∀ (operation : Session.Operation) (t : Scene Session Unit), operation.perform s = .ok ((), t) →
        ∃ more, Session.Trace (deeds ++ more) t ∧
          s.host.Adds (Session.calls s.self.socket more) t.host) ∧
    (∀ s : Scene Session Unit, s.self.closed = false →
      Ensures Session.updateInterest s fun _ t => ∃ calls, s.host.Adds calls t.host ∧
        ((∃ e ∈ calls, e.isRefusal = true) → t.self.closed = true ∧
          t.registry.get? s.self.registration.token = none)) ∧
    (∀ (α : Type) (session : Nat) (key : FlowKey) (request : Packet) (config : Config) (s : Scene α σ),
      Ensures (Flow.start session key request config) s fun result t =>
        ∃ calls, s.host.Adds calls t.host ∧ Introduces s.registry calls t.registry
          (result.map fun f => (f.socket, f.registration))) ∧
    ∀ (α : Type) (id : Nat) (socket : SocketId) (config : Config) (s : Scene α Unit),
      Ensures (Session.start id socket config) s fun result t =>
        ∃ calls, s.host.Adds calls t.host ∧ Introduces s.registry calls t.registry
          (result.map fun session => (session.socket, session.registration)) := by
  refine ⟨?_, ?_, ?_, ?_, ?_, ?_⟩
  · exact fun journal s run => ⟨run.mirrored, fun operation t performed =>
      run.ends_of_refusal performed⟩
  · exact fun journal s run => ⟨run.mirrored, fun operation t performed =>
      run.ends_of_refusal performed⟩
  · exact fun deeds s trace => ⟨trace.mirrored, fun operation t performed =>
      trace.continues performed⟩
  · exact fun s isOpen => Session.ensures_updateInterest isOpen
  · exact fun α session key request config s => Flow.introduces_start
  · exact fun α id socket config s => Session.introduces_start

/-- The poller knows what each of the owners waits for, and refuses to be told more. A connection comes
about, a datagram is not taken at once, and the tunnel has an answer to take; each of the three owners
ends by that. -/
theorem interest_mirrored_refused :
    (∃ journal, ∃ s t : Scene TcpFlow Credit, TcpFlow.Run journal s ∧
      s.self.registration.interest = some .writable ∧
      (TcpFlow.Operation.ready { writable := true }).perform s = .ok ((), t) ∧
      t.self.phase = .closed ∧ t.registry.get? s.self.registration.token = none) ∧
    (∃ journal, ∃ s t : Scene UdpFlow Credit, UdpFlow.Run journal s ∧
      s.self.registration.interest = some .readable ∧
      (UdpFlow.Operation.ofDevice [1, 2]).perform s = .ok ((), t) ∧
      t.self.closed = true ∧ t.registry.get? s.self.registration.token = none) ∧
    ∃ deeds, ∃ s u t : Scene Session Unit, Session.Trace deeds s ∧
      s.self.registration.interest = some .readable ∧ u.self.closed = false ∧
      Session.updateInterest u = .ok ((), t) ∧ t.self.closed = true ∧
      t.registry.get? u.self.registration.token = none := by
  obtain ⟨tcp, udp, session, update, -, -⟩ := interest_mirrored (σ := Credit)
  have refused {before after calls : List Event} (called : after = calls.reverse ++ before)
      (none : before.any Event.isRefusal = false) (some : after.any Event.isRefusal = true) :
      ∃ e ∈ calls, e.isRefusal = true := by
    rw [called, List.any_append, none, Bool.or_false, List.any_reverse] at some
    exact List.any_eq_true.1 some
  have erased (r : Registry) (token : Nat) : (r.erase token).get? token = none :=
    Registry.get?_eq_none_of_subset (List.Subset.refl _)
  refine ⟨?_, ?_, ?_⟩
  · obtain ⟨journal, s, run, result⟩ := TcpFlow.exists_run_of_enacts
      (p := fun _ s => s.self.phase.isConnecting && !s.host.calls.any Event.isRefusal &&
        endsAs (TcpFlow.Operation.ready { writable := true }).perform s fun t =>
          t.host.calls.any Event.isRefusal)
      (show TcpFlow.enacts (TcpFlow.devicePacket .syn 0x110 0 []) { streamCapacity := 16 }
        { sockets := [(0, { registrations := [none, some .other] })] }
        [(⟨none⟩, .ofDevice .syn 0x110 0 [])] _ = true by decide +kernel)
    simp only [Bool.and_eq_true, Bool.not_eq_true'] at result
    obtain ⟨⟨connecting, before⟩, result⟩ := result
    obtain ⟨t, performed, after⟩ := exists_of_endsAs result
    obtain ⟨mirrored, ends⟩ := tcp journal s run
    obtain ⟨steps, -, called, ended⟩ := ends _ t performed
    obtain ⟨closed, registry_eq⟩ := ended (refused called before after)
    exact ⟨journal, s, t, run, mirrored.connecting connecting, performed, closed,
      registry_eq ▸ erased _ _⟩
  · obtain ⟨journal, s, run, result⟩ := UdpFlow.exists_run_of_enacts
      (p := fun _ s => !s.self.closed && !s.self.pending && s.self.ring.toList.isEmpty &&
        !s.host.calls.any Event.isRefusal &&
        endsAs (UdpFlow.Operation.ofDevice [1, 2]).perform s fun t =>
          t.host.calls.any Event.isRefusal)
      (show UdpFlow.enacts (UdpFlow.devicePacket [1, 2]) { datagramCapacity := 16 }
        { sockets := [(0, { blocked := true, registrations := [none, some .other] })] }
        [] _ = true by decide +kernel)
    simp only [Bool.and_eq_true, Bool.not_eq_true'] at result
    obtain ⟨⟨⟨⟨isOpen, idle⟩, empty⟩, before⟩, result⟩ := result
    obtain ⟨t, performed, after⟩ := exists_of_endsAs result
    obtain ⟨mirrored, ends⟩ := udp journal s run
    obtain ⟨steps, -, called, ended⟩ := ends _ t performed
    obtain ⟨closed, registry_eq⟩ := ended (refused called before after)
    refine ⟨journal, s, t, run, ?_, performed, closed, registry_eq ▸ erased _ _⟩
    rw [mirrored.interest_eq isOpen, idle, empty]
    rfl
  · obtain ⟨s, run, result⟩ := Session.exists_run_of_enacts
      (p := fun s => !s.self.closed && s.self.outbox.ring.toList.isEmpty &&
        endsAs (Session.withTable (FlowTable.onReady
          ⟨.tcp, ⟨0x0a000002, 0xa028⟩, ⟨0x5db8d822, 80⟩⟩ { writable := true })) s fun u =>
            !u.self.closed && !u.host.calls.any Event.isRefusal &&
              endsAs Session.updateInterest u fun t => t.host.calls.any Event.isRefusal)
      (show Config.check {} = .ok () from rfl) (by decide)
      (show Session.enacts {} { nextSocket := 1, sockets := [(0, {
        arrivals := [.data (TcpFlow.devicePacket .syn 0x110 0 [])]
        registrations := [none, some .other] })] } [.ready { readable := true }] _ = true by
        decide +kernel)
    simp only [Bool.and_eq_true, Bool.not_eq_true'] at result
    obtain ⟨⟨isOpen, empty⟩, result⟩ := result
    obtain ⟨u, -, result⟩ := exists_of_endsAs result
    simp only [Bool.and_eq_true, Bool.not_eq_true'] at result
    obtain ⟨⟨isOpen', before⟩, result⟩ := result
    obtain ⟨t, updated, after⟩ := exists_of_endsAs result
    obtain ⟨deeds, trace⟩ := run.exists_trace
    obtain ⟨calls, adds, ended⟩ := update u isOpen' _ _ updated
    obtain ⟨closed, gone⟩ := ended (refused adds.calls_eq before after)
    refine ⟨deeds, s, u, t, trace, ?_, isOpen', updated, closed, gone⟩
    rw [(session deeds s trace).1.interest_eq isOpen, empty]
    rfl

end TunnelRelay
