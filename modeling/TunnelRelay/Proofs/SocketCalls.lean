import TunnelRelay.Proofs.Calls

/-!
# Calls on one socket

What a socket knows of the relay are the calls on it. The last write and the interest that the poller
knows of follow from them, so that both are safe from whatever happens on other sockets.
-/

namespace TunnelRelay

namespace Interest

theorem any_reads_of? (read write : Bool) : (of? read write).any reads = read := by
  cases read <;> cases write <;> rfl

theorem any_writes_of? (read write : Bool) : (of? read write).any writes = write := by
  cases read <;> cases write <;> rfl

end Interest

namespace Event

def socket? : Event → Option SocketId
  | register socket _ _ _ | reregister socket _ _ _ | deregister socket _ => some socket
  | read socket _ _ | receive socket _ _ | write socket _ _ | send socket _ _ => some socket
  | takeError socket _ | peerAddress socket _ | shutdownWrite socket _ => some socket
  | connectDatagram socket _ _ | setNoDelay socket _ | close socket => some socket
  | reuseAddress socket _ | bind socket _ _ | listen socket _ _ | setNonblocking socket _ =>
    some socket
  | accept listener _ => some listener
  | _ => none

def writeResult? : Event → Option (Except ErrorKind Bytes)
  | write _ _ result => some result
  | _ => none

/-- The interest that the poller has been told and has accepted, which may be none. -/
def accepted? : Event → Option (Option Interest)
  | register _ _ interest none | reregister _ _ interest none => some (some interest)
  | deregister _ none => some none
  | _ => none

/-- The interest that the poller knows of after the calls, if it knew of the given one before. -/
def polled (known : Option Interest) (calls : List Event) : Option Interest :=
  (calls.filterMap accepted?).getLast?.getD known

/-- The event is no call on the socket. -/
def Spares (e : Event) (socket : SocketId) : Prop := e.socket? ≠ some socket

theorem polled_append (known : Option Interest) (first second : List Event) :
    polled known (first ++ second) = polled (polled known first) second := by
  unfold polled
  rw [List.filterMap_append, List.getLast?_append]
  cases (second.filterMap accepted?).getLast? <;> rfl

theorem polled_of_silent {known : Option Interest} {calls : List Event}
    (silent : calls.filterMap accepted? = []) : polled known calls = known := by
  rw [polled, silent]
  rfl

theorem polled_singleton {known wanted : Option Interest} {e : Event}
    (he : e.accepted? = some wanted) : polled known [e] = wanted := by
  rw [polled, List.filterMap_cons_some he]
  rfl

/-- Where the poller comes to know of another interest, it was told of that. -/
theorem exists_accepted?_of_polled_ne {known : Option Interest} {calls : List Event}
    (changed : polled known calls ≠ known) :
    ∃ e ∈ calls, e.accepted? = some (polled known calls) := by
  cases last : (calls.filterMap accepted?).getLast? with
  | none => exact absurd (by rw [polled, last]; rfl) changed
  | some wanted =>
    rw [polled, last]
    exact List.mem_filterMap.1 (List.mem_of_getLast? last)

theorem spares_of_none {e : Event} {socket : SocketId} (he : e.socket? = none) : e.Spares socket := by
  simp [Spares, he]

def closes? : Event → Option SocketId
  | close socket => some socket
  | _ => none

theorem eq_close {e : Event} {socket : SocketId} (h : e.closes? = some socket) : e = close socket := by
  unfold closes? at h
  split at h
  · rw [Option.some.inj h]
  · cases h

/-- The token under which the poller is told of a socket. -/
def token? : Event → Option Nat
  | register _ token _ _ | reregister _ token _ _ => some token
  | _ => none

theorem exists_socket?_of_token? {e : Event} {token : Nat} (h : e.token? = some token) :
    ∃ socket, e.socket? = some socket := by
  unfold token? at h
  split at h <;> first | exact ⟨_, rfl⟩ | cases h

theorem closes?_of_socket? {e : Event} (h : e.socket? = none) : e.closes? = none := by
  unfold closes?
  split
  · cases h
  · rfl

/-- All calls are made on the socket, or on none. None of them closes it, and the poller is told of no
token but the given one, if there is one. -/
def KeepTo (calls : List Event) (socket : SocketId) (token : Option Nat) : Prop :=
  ∀ e ∈ calls, e.closes? = none ∧ (∀ other, e.socket? = some other → socket = other) ∧
    ∀ other, e.token? = some other → token = some other

variable {calls first second : List Event} {socket : SocketId} {token : Option Nat}

theorem keepTo_nil (socket : SocketId) (token : Option Nat) : KeepTo [] socket token :=
  fun _ mem => absurd mem List.not_mem_nil

theorem keepTo_singleton {e : Event} (he : e.socket? = some socket) (open' : e.closes? = none)
    (untold : e.token? = none) : KeepTo [e] socket token := by
  intro e' mem
  rw [List.mem_singleton.1 mem, he, untold]
  exact ⟨open', fun other ho => Option.some.inj ho, nofun⟩

theorem keepTo_register (socket : SocketId) (token : Nat) (interest : Interest) (outcome : Outcome) :
    KeepTo [.register socket token interest outcome] socket (some token) := by
  simp [KeepTo, closes?, socket?, token?]

theorem KeepTo.append (h : KeepTo first socket token) (h' : KeepTo second socket token) :
    KeepTo (first ++ second) socket token :=
  fun e mem => (List.mem_append.1 mem).elim (h e) (h' e)

theorem KeepTo.spares {other : SocketId} (h : KeepTo calls socket token) (ne : socket ≠ other) :
    ∀ e ∈ calls, e.Spares other :=
  fun e mem he => ne ((h e mem).2.1 _ he)

end Event

namespace Host

variable {h h' h'' : Host} {calls : List Event} {socket : SocketId} {e : Event}

def callsOn (h : Host) (socket : SocketId) : List Event :=
  h.calls.filter fun e => e.socket? = some socket

def lastWrite (h : Host) (socket : SocketId) : Option (Except ErrorKind Bytes) :=
  (h.callsOn socket).findSome? Event.writeResult?

/-- The interest in a socket that the poller knows of. -/
def polled (h : Host) (socket : SocketId) : Option Interest :=
  ((h.callsOn socket).findSome? Event.accepted?).join

theorem After.callsOn_eq (hc : h.After calls h') :
    h'.callsOn socket = (calls.filter fun e => e.socket? = some socket).reverse ++ h.callsOn socket := by
  rw [callsOn, callsOn, hc.calls_eq, List.filter_append, List.filter_reverse]

theorem After.callsOn_singleton (hc : h.After [e] h') (he : e.socket? = some socket) :
    h'.callsOn socket = e :: h.callsOn socket := by
  simp [hc.callsOn_eq, he]

theorem After.lastWrite_eq (hc : h.After [e] h') (he : e.socket? = some socket) :
    h'.lastWrite socket = e.writeResult?.or (h.lastWrite socket) := by
  rw [lastWrite, hc.callsOn_singleton he, List.findSome?_cons]
  cases e.writeResult? <;> rfl

theorem After.polled_eq (hc : h.After [e] h') (he : e.socket? = some socket) :
    h'.polled socket = (e.accepted?.getD (h.polled socket)) := by
  rw [polled, hc.callsOn_singleton he, List.findSome?_cons]
  cases e.accepted? <;> rfl

/-- Meanwhile nothing was called on the socket, which was open all the time. -/
structure Aside (socket : SocketId) (h h' : Host) : Prop where
  callsOn_eq : h'.callsOn socket = h.callsOn socket
  nextSocket_le : h.nextSocket ≤ h'.nextSocket

namespace Aside

theorem refl (h : Host) : Aside socket h h := ⟨rfl, Nat.le_refl _⟩

theorem trans (h₁ : Aside socket h h') (h₂ : Aside socket h' h'') : Aside socket h h'' :=
  ⟨h₂.callsOn_eq.trans h₁.callsOn_eq, Nat.le_trans h₁.nextSocket_le h₂.nextSocket_le⟩

theorem lastWrite_eq (ha : Aside socket h h') : h'.lastWrite socket = h.lastWrite socket := by
  rw [lastWrite, lastWrite, ha.callsOn_eq]

theorem polled_eq (ha : Aside socket h h') : h'.polled socket = h.polled socket := by
  rw [polled, polled, ha.callsOn_eq]

theorem record (ha : Aside socket h h') (he : e.Spares socket) : Aside socket h (h'.record e) where
  callsOn_eq := by
    rw [← ha.callsOn_eq]
    simp only [callsOn, Host.calls, Host.record, List.filter_filter]
    exact List.filter_cons_of_neg (by simp [show e.socket? ≠ some socket from he])
  nextSocket_le := ha.nextSocket_le

theorem note (ha : Aside socket h h') (notice : Notice) :
    Aside socket h (h'.record (.notice notice)) :=
  ha.record (Event.spares_of_none rfl)

end Aside

theorem Adds.aside (hc : h.Adds calls h') (he : ∀ e ∈ calls, e.Spares socket) :
    Aside socket h h' where
  callsOn_eq := by
    have none : (calls.filter fun e => e.socket? = some socket) = [] :=
      List.filter_eq_nil_iff.2 fun e mem => by simpa [Event.Spares] using he e mem
    rw [callsOn, callsOn, hc.calls_eq, List.filter_append, List.filter_reverse, none]
    rfl
  nextSocket_le := hc.nextSocket_le

/-- None of the calls since then was made on a socket that was left alone. -/
theorem Adds.spares (hc : h.Adds calls h') (aside : Aside socket h h') :
    ∀ e ∈ calls, e.Spares socket := by
  have none := aside.callsOn_eq
  rw [callsOn, callsOn, hc.calls_eq, List.filter_append, List.append_left_eq_self,
    List.filter_eq_nil_iff] at none
  intro e mem on
  exact none e (List.mem_reverse.2 mem) (by simpa using on)

theorem After.aside (hc : h.After calls h') (he : ∀ e ∈ calls, e.Spares socket) :
    Aside socket h h' := hc.adds.aside he

/-- The call creates the socket with the next number, if any. -/
structure Creates (h : Host) (call : Event) (result : Except ErrorKind SocketId) (h' : Host) :
    Prop where
  adds : h.Adds [call] h'
  created : ∀ id, result = .ok id → id = h.nextSocket ∧ h.nextSocket < h'.nextSocket

theorem creates_create {asked : Host} (hc : h.After [e] asked) (outcome : Outcome) :
    Creates h e (asked.create outcome).1 (asked.create outcome).2 := by
  cases outcome with
  | none =>
    refine ⟨⟨hc.calls_eq, ?_⟩, ?_⟩
    · exact Nat.le_succ_of_le hc.adds.nextSocket_le
    · rintro id ⟨⟩
      exact ⟨hc.nextSocket_eq, Nat.lt_succ_of_le hc.adds.nextSocket_le⟩
  | some kind => exact ⟨hc.adds, fun id created => by cases created⟩

theorem creates_connect (h : Host) (peer : Endpoint) :
    Creates h (.connect peer (h.creations.connect.headD none)) (h.connect peer).1
      (h.connect peer).2 := by
  have asked : h.After [] { h with creations.connect := h.creations.connect.tail } :=
    ⟨rfl, rfl, rfl⟩
  exact creates_create (asked.record rfl) _

theorem creates_openDatagram (h : Host) :
    Creates h (.openDatagram .unspecified (h.creations.openDatagram.headD none)) h.openDatagram.1
      h.openDatagram.2 := by
  have asked : h.After [] { h with creations.openDatagram := h.creations.openDatagram.tail } :=
    ⟨rfl, rfl, rfl⟩
  exact creates_create (asked.record rfl) _

theorem creates_openListener (h : Host) :
    Creates h (.openListener (h.creations.openListener.headD none)) h.openListener.1
      h.openListener.2 := by
  have asked : h.After [] { h with creations.openListener := h.creations.openListener.tail } :=
    ⟨rfl, rfl, rfl⟩
  exact creates_create (asked.record rfl) _

theorem creates_accept (h : Host) (listener : SocketId) :
    Creates h (.accept listener ((h.accept listener).1.map Prod.fst))
      ((h.accept listener).1.map Prod.fst) (h.accept listener).2 := by
  unfold accept
  dsimp only
  split
  · exact ⟨⟨rfl, Nat.le_refl _⟩, nofun⟩
  · refine ⟨⟨rfl, Nat.le_succ _⟩, ?_⟩
    rintro id ⟨⟩
    exact ⟨rfl, Nat.lt_succ_self _⟩

theorem After.connectDatagram (hc : h.After calls h') (id : SocketId) (peer : Endpoint) :
    h.After (calls ++ [.connectDatagram id peer (h'.connectDatagram id peer).1])
      (h'.connectDatagram id peer).2 := by
  have asked : h.After calls
      { h' with creations.connectDatagram := h'.creations.connectDatagram.tail } :=
    ⟨hc.calls_eq, hc.nextSocket_eq, hc.clock_eq⟩
  exact asked.record rfl

theorem After.setNoDelay (hc : h.After calls h') (id : SocketId) :
    h.After (calls ++ [.setNoDelay id (h'.setNoDelay id).1]) (h'.setNoDelay id).2 :=
  hc.callSocket id Socket.setNoDelay fun _ => rfl

theorem adds_close (h : Host) (id : SocketId) : h.Adds [.close id] (h.close id) :=
  adds_record h rfl

theorem aside_close {id : SocketId} (ne : id ≠ socket) : Aside socket h (h.close id) :=
  (Aside.refl h).record (by simpa [Event.Spares, Event.socket?] using ne)

end Host

namespace Registration

variable {r : Registration} {socket : SocketId}

theorem socket?_pollerCall (wanted : Option Interest) (outcome : Outcome) :
    (r.pollerCall socket wanted outcome).socket? = some socket := by
  unfold pollerCall
  split <;> rfl

theorem keepTo_pollerCall (wanted : Option Interest) (outcome : Outcome) :
    Event.KeepTo [r.pollerCall socket wanted outcome] socket (some r.token) := by
  unfold pollerCall
  split <;> simp [Event.KeepTo, Event.closes?, Event.socket?, Event.token?]

theorem writeResult?_pollerCall (wanted : Option Interest) (outcome : Outcome) :
    (r.pollerCall socket wanted outcome).writeResult? = none := by
  unfold pollerCall
  split <;> rfl

theorem accepted?_pollerCall (wanted : Option Interest) :
    (r.pollerCall socket wanted none).accepted? = some wanted := by
  unfold pollerCall
  split <;> rfl

theorem accepted?_pollerCall_of_refused (wanted : Option Interest) (kind : ErrorKind) :
    (r.pollerCall socket wanted (some kind)).accepted? = none := by
  unfold pollerCall
  split <;> rfl

/-- Cancelling a registration leaves this one behind, by this call. -/
inductive Cancels (r : Registration) (socket : SocketId) : Registration → Option Event → Prop where
  | unknown (h : r.interest = none) : Cancels r socket r none
  | known (h : r.interest ≠ none) (outcome : Outcome) :
      Cancels r socket (r.told none outcome) (some (.deregister socket outcome))

namespace Cancels

variable {r' : Registration} {call : Option Event}

theorem token_eq (h : r.Cancels socket r' call) : r'.token = r.token := by
  cases h with
  | unknown _ => rfl
  | known _ outcome => cases outcome <;> rfl

/-- The poller is told to forget the socket, and nothing else happens. -/
theorem silent {β : Type} {p : Event → Option β} (h : r.Cancels socket r' call)
    (quiet : ∀ outcome, p (.deregister socket outcome) = none) : call.toList.filterMap p = [] := by
  cases h with
  | unknown _ => rfl
  | known _ outcome => exact List.filterMap_cons_none (quiet outcome)

theorem keepTo (h : r.Cancels socket r' call) :
    Event.KeepTo call.toList socket (some r.token) := by
  cases h with
  | unknown _ => exact Event.keepTo_nil _ _
  | known _ outcome => exact Event.keepTo_singleton rfl rfl rfl

end Cancels

end Registration

end TunnelRelay
