import TunnelRelay.Outlet
import TunnelRelay.Proofs.Act
import TunnelRelay.Registration

/-!
# Calls

The events of a host are its calls and notices of what happens. Nothing in the relay depends on what
was noted, so that a step of a component is described by the calls that it adds.
-/

namespace TunnelRelay

/-- Whether the event is more than a notice. -/
def Event.isCall : Event → Bool
  | .notice _ => false
  | _ => true

namespace Host

/-- The events but for notices, latest first. -/
def calls (h : Host) : List Event := h.history.filter Event.isCall

/-- The host `h'` is what `h` becomes by the given calls, first ones first. -/
structure After (h : Host) (calls : List Event) (h' : Host) : Prop where
  calls_eq : h'.calls = calls.reverse ++ h.calls
  nextSocket_eq : h'.nextSocket = h.nextSocket
  clock_eq : h'.clock = h.clock

theorem After.refl (h : Host) : h.After [] h := ⟨rfl, rfl, rfl⟩

theorem After.trans {h h' h'' : Host} {first second : List Event} (h₁ : h.After first h')
    (h₂ : h'.After second h'') : h.After (first ++ second) h'' where
  calls_eq := by rw [h₂.calls_eq, h₁.calls_eq, List.reverse_append, List.append_assoc]
  nextSocket_eq := h₂.nextSocket_eq.trans h₁.nextSocket_eq
  clock_eq := h₂.clock_eq.trans h₁.clock_eq

theorem After.note {h h' : Host} {calls : List Event} (hc : h.After calls h') (notice : Notice) :
    h.After calls (h'.record (.notice notice)) :=
  ⟨hc.calls_eq, hc.nextSocket_eq, hc.clock_eq⟩

theorem After.record {h h' : Host} {calls : List Event} (hc : h.After calls h') {e : Event}
    (he : e.isCall = true) : h.After (calls ++ [e]) (h'.record e) where
  calls_eq := by
    rw [List.reverse_append, List.reverse_singleton, List.append_assoc, ← hc.calls_eq]
    exact List.filter_cons_of_pos he
  nextSocket_eq := hc.nextSocket_eq
  clock_eq := hc.clock_eq

theorem After.callSocket {β : Type} {h h' : Host} {calls : List Event} (hc : h.After calls h')
    (id : SocketId) (call : Socket → β × Socket) {event : β → Event}
    (he : ∀ b, (event b).isCall = true) :
    h.After (calls ++ [event (h'.callSocket id call event).1])
      (h'.callSocket id call event).2 :=
  (show h.After calls (h'.setSocket id _) from
    ⟨hc.calls_eq, hc.nextSocket_eq, hc.clock_eq⟩).record (he _)

theorem After.read {h h' : Host} {calls : List Event} (hc : h.After calls h') (id : SocketId)
    (size : Nat) : h.After (calls ++ [.read id size (h'.read id size).1]) (h'.read id size).2 :=
  hc.callSocket id (·.read size) fun _ => rfl

theorem After.write {h h' : Host} {calls : List Event} (hc : h.After calls h') (id : SocketId)
    (bytes : Bytes) :
    h.After (calls ++ [.write id bytes.length (h'.write id bytes).1]) (h'.write id bytes).2 :=
  hc.callSocket id (·.write bytes) fun _ => rfl

theorem After.receive {h h' : Host} {calls : List Event} (hc : h.After calls h') (id : SocketId)
    (size : Nat) :
    h.After (calls ++ [.receive id size (h'.receive id size).1]) (h'.receive id size).2 :=
  hc.callSocket id (·.receive size) fun _ => rfl

theorem After.send {h h' : Host} {calls : List Event} (hc : h.After calls h') (id : SocketId)
    (bytes : Bytes) :
    h.After (calls ++ [.send id bytes.length (h'.send id bytes).1]) (h'.send id bytes).2 :=
  hc.callSocket id (·.send bytes) fun _ => rfl

theorem After.takeError {h h' : Host} {calls : List Event} (hc : h.After calls h')
    (id : SocketId) :
    h.After (calls ++ [.takeError id (h'.takeError id).1]) (h'.takeError id).2 :=
  hc.callSocket id Socket.takeError fun _ => rfl

theorem After.peerAddress {h h' : Host} {calls : List Event} (hc : h.After calls h')
    (id : SocketId) :
    h.After (calls ++ [.peerAddress id (h'.peerAddress id).1]) (h'.peerAddress id).2 :=
  hc.callSocket id Socket.peerAddress fun _ => rfl

theorem After.shutdownWrite {h h' : Host} {calls : List Event} (hc : h.After calls h')
    (id : SocketId) :
    h.After (calls ++ [.shutdownWrite id (h'.shutdownWrite id).1]) (h'.shutdownWrite id).2 :=
  hc.callSocket id Socket.shutdown fun _ => rfl

theorem After.register {h h' : Host} {calls : List Event} (hc : h.After calls h') (id : SocketId)
    (token : Nat) (interest : Interest) :
    h.After (calls ++ [.register id token interest (h'.register id token interest).1])
      (h'.register id token interest).2 :=
  hc.callSocket id Socket.register fun _ => rfl

theorem After.reregister {h h' : Host} {calls : List Event} (hc : h.After calls h')
    (id : SocketId) (token : Nat) (interest : Interest) :
    h.After (calls ++ [.reregister id token interest (h'.reregister id token interest).1])
      (h'.reregister id token interest).2 :=
  hc.callSocket id Socket.register fun _ => rfl

theorem After.deregister {h h' : Host} {calls : List Event} (hc : h.After calls h')
    (id : SocketId) :
    h.After (calls ++ [.deregister id (h'.deregister id).1]) (h'.deregister id).2 :=
  hc.callSocket id Socket.register fun _ => rfl

/-- The host `h'` is what `h` becomes by the given calls, some of which may have created sockets. -/
structure Adds (h : Host) (calls : List Event) (h' : Host) : Prop where
  calls_eq : h'.calls = calls.reverse ++ h.calls
  nextSocket_le : h.nextSocket ≤ h'.nextSocket

theorem After.adds {h h' : Host} {calls : List Event} (hc : h.After calls h') : h.Adds calls h' :=
  ⟨hc.calls_eq, Nat.le_of_eq hc.nextSocket_eq.symm⟩

theorem Adds.trans {h h' h'' : Host} {first second : List Event} (h₁ : h.Adds first h')
    (h₂ : h'.Adds second h'') : h.Adds (first ++ second) h'' where
  calls_eq := by rw [h₂.calls_eq, h₁.calls_eq, List.reverse_append, List.append_assoc]
  nextSocket_le := Nat.le_trans h₁.nextSocket_le h₂.nextSocket_le

theorem Adds.refl (h : Host) : h.Adds [] h := (After.refl h).adds

theorem Adds.unique {h h' : Host} {calls calls' : List Event} (hc : h.Adds calls h')
    (hc' : h.Adds calls' h') : calls = calls' := by
  have same := hc.calls_eq.symm.trans hc'.calls_eq
  exact List.reverse_inj.1 (List.append_cancel_right same)

theorem Adds.note {h h' : Host} {calls : List Event} (hc : h.Adds calls h') (notice : Notice) :
    h.Adds calls (h'.record (.notice notice)) :=
  ⟨hc.calls_eq, hc.nextSocket_le⟩

theorem adds_record (h : Host) {e : Event} (he : e.isCall = true) : h.Adds [e] (h.record e) :=
  ((After.refl h).record he).adds

theorem After.random {h h' : Host} {calls : List Event} (hc : h.After calls h') :
    h.After calls h'.random.2 :=
  ⟨hc.calls_eq, hc.nextSocket_eq, hc.clock_eq⟩

end Host

theorem Host.length_read_le {h : Host} {id : SocketId} {size : Nat} {bytes : Bytes}
    (hr : (h.read id size).1 = .ok bytes) : bytes.length ≤ size := by
  change ((h.socket id).read size).1 = .ok bytes at hr
  unfold Socket.read at hr
  split at hr <;> cases hr
  · exact Nat.zero_le _
  · exact List.length_take_le _ _

theorem Host.length_receive_le {h : Host} {id : SocketId} {size : Nat} {datagram : Bytes}
    (hr : (h.receive id size).1 = .ok datagram) : datagram.length ≤ size := by
  change ((h.socket id).receive size).1 = .ok datagram at hr
  unfold Socket.receive at hr
  split at hr <;> cases hr
  · exact Nat.zero_le _
  · exact List.length_take_le _ _

theorem Host.write_prefix {h : Host} {id : SocketId} {bytes taken : Bytes}
    (hw : (h.write id bytes).1 = .ok taken) : taken = bytes.take taken.length := by
  change ((h.socket id).write bytes).1 = .ok taken at hw
  unfold Socket.write at hw
  split at hw
  · split at hw <;> cases hw
    exact List.take_length.symm
  · cases hw
    rw [List.length_take, List.take_eq_take_iff]
    omega
  · cases hw
    exact List.take_length.symm
  · cases hw

namespace Act

variable {α σ : Type} {s : Scene α σ}

@[simp]
theorem ensures_note {Q : Unit → Scene α σ → Prop} (notice : Notice) :
    Ensures (note notice) s Q ↔ Q () { s with host := s.host.record (.notice notice) } :=
  ensures_tell _

@[simp]
theorem ensures_offer [Outlet σ] {Q : Bool → Scene α σ → Prop} (packet : Bytes) :
    Ensures (offer packet) s Q ↔ ∀ taken out, Outlet.offer packet s.out = .ok (taken, out) →
      Q taken { s with out, host := s.host.record (.offer packet taken) } := by
  simp [offer]

@[simp]
theorem ensures_await [Outlet σ] {Q : Unit → Scene α σ → Prop} (key : FlowKey) :
    Ensures (await key) s Q ↔
      Q () { s with out := Outlet.await key s.out, host := s.host.record (.await key) } := by
  simp [await]

end Act

namespace Registration

variable {α σ : Type} {s : Scene α σ}

/-- The call that tells the poller about another interest. -/
def pollerCall (r : Registration) (socket : SocketId) (wanted : Option Interest)
    (outcome : Outcome) : Event :=
  match r.interest, wanted with
  | none, some interest => .register socket r.token interest outcome
  | some _, some interest => .reregister socket r.token interest outcome
  | _, none => .deregister socket outcome

/-- What a registration is after the poller was told about another interest. -/
def told (r : Registration) (wanted : Option Interest) (outcome : Outcome) : Registration :=
  match outcome with
  | none => { r with interest := wanted }
  | some _ => r

/-- The poller is told about an interest that it does not know, and about no other. -/
theorem ensures_update {Q : Except ErrorKind Registration → Scene α σ → Prop} {r : Registration}
    {socket : SocketId} {wanted : Option Interest}
    (same : r.interest = wanted → Q (.ok r) s)
    (accepted : r.interest ≠ wanted → ∀ host,
      s.host.After [r.pollerCall socket wanted none] host →
      Q (.ok (r.told wanted none)) { s with host })
    (refused : r.interest ≠ wanted → ∀ kind host,
      s.host.After [r.pollerCall socket wanted (some kind)] host →
      Q (.error kind) { s with host }) :
    Act.Ensures (r.update socket wanted) s Q := by
  unfold update
  split
  · next h => simpa using same h
  · next h =>
    have told : Act.Ensures (r.tellPoller socket wanted : Act α σ Outcome)
        { s with host := s.host.record (.notice (.interestChange r.token r.interest wanted)) }
        fun outcome t => ∃ host, t = { s with host } ∧
          s.host.After [r.pollerCall socket wanted outcome] host := by
      have base := (Host.After.refl s.host).note (.interestChange r.token r.interest wanted)
      obtain ⟨token, interest⟩ := r
      cases interest <;> cases wanted
      case none.none => exact absurd rfl h
      case none.some interest =>
        change Act.Ensures (Act.call (Host.register socket token interest)) _ _
        exact (Act.ensures_call _).2 ⟨_, rfl, base.register socket token interest⟩
      case some.none =>
        change Act.Ensures (Act.call (Host.deregister socket)) _ _
        exact (Act.ensures_call _).2 ⟨_, rfl, base.deregister socket⟩
      case some.some interest =>
        change Act.Ensures (Act.call (Host.reregister socket token interest)) _ _
        exact (Act.ensures_call _).2 ⟨_, rfl, base.reregister socket token interest⟩
    simp only [Act.ensures_bind, Act.ensures_note]
    refine told.mono ?_
    rintro (- | kind) _ ⟨host, rfl, hh⟩
    · exact (Act.ensures_pure _).2 (accepted h host hh)
    · exact (Act.ensures_pure _).2 (refused h kind host hh)

/-- A socket that the poller accepts is registered under a new token. -/
theorem ensures_enter {Q : Except ErrorKind Registration → Scene α σ → Prop} {socket : SocketId}
    {interest : Interest} {handler : Handler}
    (accepted : ∀ host,
      s.host.After [.register socket s.registry.nextToken interest none] host →
      Q (.ok ⟨s.registry.nextToken, some interest⟩)
        { s with registry := (s.registry.insert handler).2, host })
    (refused : ∀ kind host,
      s.host.After [.register socket s.registry.nextToken interest (some kind)] host →
      Q (.error kind)
        { s with registry := (s.registry.insert handler).2.erase s.registry.nextToken, host }) :
    Act.Ensures (enter socket (some interest) handler) s Q := by
  simp only [enter, Act.ensures_bind, Act.ensures_modifyGet]
  apply ensures_update
  · rintro ⟨⟩
  · intro _ host hh
    exact (Act.ensures_pure _).2 (accepted host hh)
  · intro _ kind host hh
    simp only [Act.ensures_bind, Act.ensures_modify, Act.ensures_pure]
    exact refused kind host hh

/-- A cancelled registration has no entry any more. The poller is told if it knew the socket. -/
theorem ensures_cancel {Q : Registration → Scene α σ → Prop} {r : Registration}
    {socket : SocketId}
    (unknown : ∀ host, r.interest = none → s.host.After [] host →
      Q r { s with registry := s.registry.erase r.token, host })
    (known : ∀ outcome host, r.interest ≠ none →
      s.host.After [.deregister socket outcome] host →
      Q (r.told none outcome) { s with registry := s.registry.erase r.token, host }) :
    Act.Ensures (r.cancel socket) s Q := by
  have call (outcome : Outcome) (h : r.interest ≠ none) :
      r.pollerCall socket none outcome = .deregister socket outcome := by
    unfold pollerCall
    split <;> simp_all
  unfold cancel
  rw [Act.ensures_bind]
  apply ensures_update
  · intro h
    simpa using unknown s.host h (.refl _)
  · intro h host hh
    rw [call none h] at hh
    simpa using known none host h hh
  · intro h kind host hh
    rw [call (some kind) h] at hh
    simpa [told] using known (some kind) _ h (hh.note _)

end Registration

end TunnelRelay
