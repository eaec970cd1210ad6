import TunnelRelay.Proofs.Achieves
import TunnelRelay.Proofs.Calls

/-!
# What calls use up

A call takes what it finds away from its socket and puts nothing there. What the sockets of a host
still have to give and to take bounds the loops that read and write them.
-/

namespace TunnelRelay

namespace Socket

/-- The socket `s'` has no more to find than `s`, and blocks where `s` does. -/
structure Spends (s s' : Socket) : Prop where
  arrivals_le : s'.arrivals.length ≤ s.arrivals.length
  transfers_le : s'.transfers.length ≤ s.transfers.length
  unread_le : s'.unread ≤ s.unread
  visitors_le : s'.visitors.length ≤ s.visitors.length
  blocked_eq : s'.blocked = s.blocked

variable {s : Socket} {size : Nat} {bytes : Bytes} {kind : ErrorKind}

theorem Spends.of_eq {s s' : Socket} (arrivals : s'.arrivals = s.arrivals)
    (transfers : s'.transfers = s.transfers) (visitors : s'.visitors = s.visitors)
    (blocked : s'.blocked = s.blocked) : s.Spends s' := by
  constructor <;> simp [unread, arrivals, transfers, visitors, blocked]

theorem Spends.trans {s s' s'' : Socket} (h : s.Spends s') (h' : s'.Spends s'') : s.Spends s'' where
  arrivals_le := Nat.le_trans h'.arrivals_le h.arrivals_le
  transfers_le := Nat.le_trans h'.transfers_le h.transfers_le
  unread_le := Nat.le_trans h'.unread_le h.unread_le
  visitors_le := Nat.le_trans h'.visitors_le h.visitors_le
  blocked_eq := h'.blocked_eq.trans h.blocked_eq

theorem spends_read (s : Socket) (size : Nat) : s.Spends (s.read size).2 := by
  unfold read
  split
  · exact .of_eq rfl rfl rfl rfl
  · next rest found => constructor <;> simp [unread, found]
  · exact .of_eq rfl rfl rfl rfl
  · next bytes rest found =>
    by_cases all : bytes.drop size = [] <;> constructor <;> simp [unread, found, all]

/-- A read that yields bytes uses some of them up. -/
theorem unread_read_lt (h : (s.read size).1 = .ok bytes) (nonempty : bytes ≠ []) :
    (s.read size).2.unread < s.unread := by
  unfold read at h ⊢
  split at h
  · cases h
  · cases h
  · cases h
    exact absurd rfl nonempty
  · next found rest arrived =>
    cases h
    have some : size ≠ 0 ∧ found ≠ [] := by simpa [List.take_eq_nil_iff] using nonempty
    have length : found.length ≠ 0 := by simpa using some.2
    by_cases all : found.drop size = [] <;> simp [unread, arrived, all]
    omega

theorem arrivals_read_lt (h : (s.read size).1 = .error kind) (waits : kind ≠ .wouldBlock) :
    (s.read size).2.arrivals.length < s.arrivals.length ∧ (s.read size).2.unread < s.unread := by
  unfold read at h ⊢
  split at h
  · cases h
    exact absurd rfl waits
  · next found => simp [unread, found]
  · cases h
  · cases h

theorem spends_receive (s : Socket) (size : Nat) : s.Spends (s.receive size).2 := by
  unfold receive
  split
  · exact .of_eq rfl rfl rfl rfl
  all_goals next found => constructor <;> simp [unread, found]

/-- Receiving uses an arrival up unless there is none. -/
theorem arrivals_receive_lt (h : (s.receive size).1 ≠ .error .wouldBlock) :
    (s.receive size).2.arrivals.length < s.arrivals.length ∧
      (s.receive size).2.unread < s.unread := by
  unfold receive at h ⊢
  split at h
  · exact absurd rfl h
  all_goals
    next found =>
    simp [unread, found]

theorem spends_write (s : Socket) (bytes : Bytes) : s.Spends (s.write bytes).2 := by
  unfold write
  split
  · exact .of_eq rfl rfl rfl rfl
  all_goals next found => constructor <;> simp [unread, found]

theorem transfers_write_lt (h : (s.write bytes).1 = .error kind) (waits : kind ≠ .wouldBlock) :
    (s.write bytes).2.transfers.length < s.transfers.length := by
  unfold write at h ⊢
  split at h
  · split at h <;> cases h
    exact absurd rfl waits
  · cases h
  · cases h
  · next found => simp [found]

theorem spends_send (s : Socket) (bytes : Bytes) : s.Spends (s.send bytes).2 := by
  unfold send
  split
  · exact .of_eq rfl rfl rfl rfl
  all_goals next found => constructor <;> simp [unread, found]

theorem transfers_send_lt (h : (s.send bytes).1 = .error kind) (waits : kind ≠ .wouldBlock) :
    (s.send bytes).2.transfers.length < s.transfers.length := by
  unfold send at h ⊢
  split at h
  · split at h <;> cases h
    exact absurd rfl waits
  · next found => simp [found]
  · cases h

end Socket

namespace Host

/-- No socket has more to find in the host `h'` than in `h`. -/
structure Spends (h h' : Host) : Prop where
  socket (id : SocketId) : (h.socket id).Spends (h'.socket id)
  unread_le : h'.unread ≤ h.unread

variable {h h' h'' : Host} {id : SocketId}

theorem Spends.of_eq (sockets : h'.sockets = h.sockets) : h.Spends h' := by
  refine ⟨fun id => ?_, by simp [unread, sockets]⟩
  have same : h'.socket id = h.socket id := by simp [Host.socket, sockets]
  exact .of_eq (by rw [same]) (by rw [same]) (by rw [same]) (by rw [same])

theorem Spends.refl (h : Host) : h.Spends h := .of_eq rfl

theorem Spends.trans (first : h.Spends h') (second : h'.Spends h'') : h.Spends h'' :=
  ⟨fun id => (first.socket id).trans (second.socket id),
    Nat.le_trans second.unread_le first.unread_le⟩

theorem spends_record (h : Host) (event : Event) : h.Spends (h.record event) := .of_eq rfl

theorem socket_setSocket (h : Host) (id id' : SocketId) (s : Socket) :
    (h.setSocket id s).socket id' = if id' = id then s else h.socket id' := by
  have entries (sockets : List (SocketId × Socket)) :
      (insertSocket id s sockets).lookup id' = if id' = id then some s else sockets.lookup id' := by
    induction sockets with
    | nil =>
      by_cases same : id' = id
      · simp [insertSocket, same]
      · simp [insertSocket, List.lookup_cons, same, beq_eq_false_iff_ne.2 same]
    | cons entry rest ih =>
      obtain ⟨first, found⟩ := entry
      simp only [insertSocket]
      split
      · next here =>
        obtain rfl : id = first := by simpa using here
        by_cases same : id' = id <;> simp [List.lookup_cons, same, beq_eq_false_iff_ne.2]
      · next elsewhere =>
        have apart : id ≠ first := by simpa using elsewhere
        by_cases same : id' = first
        · subst same
          simp [Ne.symm apart]
        · simp [List.lookup_cons, beq_eq_false_iff_ne.2 same, ih]
  simp only [socket, setSocket, entries]
  split <;> rfl

theorem unread_setSocket (h : Host) (id : SocketId) (s : Socket) :
    (h.setSocket id s).unread + (h.socket id).unread = h.unread + s.unread := by
  obtain ⟨sockets, _, _, _, _, _, _⟩ := h
  simp only [unread, setSocket, socket]
  induction sockets with
  | nil => simp [insertSocket, Socket.unread]
  | cons entry rest ih =>
    obtain ⟨first, found⟩ := entry
    by_cases same : id = first
    · subst same
      simp [insertSocket]
      omega
    · simp only [insertSocket, List.lookup_cons, beq_eq_false_iff_ne.2 same, List.foldr_cons]
      simp only [Bool.false_eq_true, if_false, List.foldr_cons]
      omega

theorem spends_setSocket {s : Socket} (hs : (h.socket id).Spends s) :
    h.Spends (h.setSocket id s) := by
  constructor
  · intro id'
    rw [socket_setSocket]
    split
    · next same => exact same ▸ hs
    · exact .of_eq rfl rfl rfl rfl
  · have total := h.unread_setSocket id s
    have := hs.unread_le
    omega

theorem unread_setSocket_lt {s : Socket} (hs : s.unread < (h.socket id).unread) :
    (h.setSocket id s).unread < h.unread := by
  have total := h.unread_setSocket id s
  omega

variable {α : Type} {call : Socket → α × Socket} {event : α → Event}

theorem spends_callSocket (hs : (h.socket id).Spends (call (h.socket id)).2) :
    h.Spends (h.callSocket id call event).2 :=
  (spends_setSocket hs).trans (spends_record _ _)

theorem socket_callSocket :
    (h.callSocket id call event).2.socket id = (call (h.socket id)).2 := by
  change (h.setSocket id (call (h.socket id)).2).socket id = _
  rw [socket_setSocket, if_pos rfl]

theorem unread_callSocket_lt (hs : (call (h.socket id)).2.unread < (h.socket id).unread) :
    (h.callSocket id call event).2.unread < h.unread := unread_setSocket_lt hs

variable {size : Nat} {bytes offered : Bytes} {kind : ErrorKind}

theorem spends_read (h : Host) (id : SocketId) (size : Nat) : h.Spends (h.read id size).2 :=
  spends_callSocket (Socket.spends_read _ size)

theorem unread_read_lt (found : (h.read id size).1 = .ok bytes) (nonempty : bytes ≠ []) :
    ((h.read id size).2.socket id).unread < (h.socket id).unread ∧
      (h.read id size).2.unread < h.unread := by
  have less := Socket.unread_read_lt found nonempty
  exact ⟨by rw [read, socket_callSocket]; exact less, unread_callSocket_lt less⟩

theorem arrivals_read_lt (found : (h.read id size).1 = .error kind) (waits : kind ≠ .wouldBlock) :
    ((h.read id size).2.socket id).arrivals.length < (h.socket id).arrivals.length ∧
      ((h.read id size).2.socket id).unread < (h.socket id).unread := by
  rw [read, socket_callSocket]
  exact Socket.arrivals_read_lt found waits

theorem spends_receive (h : Host) (id : SocketId) (size : Nat) :
    h.Spends (h.receive id size).2 :=
  spends_callSocket (Socket.spends_receive _ size)

theorem arrivals_receive_lt (found : (h.receive id size).1 ≠ .error .wouldBlock) :
    ((h.receive id size).2.socket id).arrivals.length < (h.socket id).arrivals.length ∧
      (h.receive id size).2.unread < h.unread := by
  have less := Socket.arrivals_receive_lt found
  exact ⟨by rw [receive, socket_callSocket]; exact less.1, unread_callSocket_lt less.2⟩

theorem spends_write (h : Host) (id : SocketId) (bytes : Bytes) :
    h.Spends (h.write id bytes).2 :=
  spends_callSocket (Socket.spends_write _ bytes)

theorem transfers_write_lt (found : (h.write id offered).1 = .error kind)
    (waits : kind ≠ .wouldBlock) :
    ((h.write id offered).2.socket id).transfers.length < (h.socket id).transfers.length := by
  rw [write, socket_callSocket]
  exact Socket.transfers_write_lt found waits

theorem spends_send (h : Host) (id : SocketId) (bytes : Bytes) : h.Spends (h.send id bytes).2 :=
  spends_callSocket (Socket.spends_send _ bytes)

theorem transfers_send_lt (found : (h.send id offered).1 = .error kind)
    (waits : kind ≠ .wouldBlock) :
    ((h.send id offered).2.socket id).transfers.length < (h.socket id).transfers.length := by
  rw [send, socket_callSocket]
  exact Socket.transfers_send_lt found waits

theorem spends_takeError (h : Host) (id : SocketId) : h.Spends (h.takeError id).2 :=
  spends_callSocket (.of_eq rfl rfl rfl rfl)

theorem spends_peerAddress (h : Host) (id : SocketId) : h.Spends (h.peerAddress id).2 :=
  spends_callSocket (.of_eq rfl rfl rfl rfl)

theorem spends_shutdownWrite (h : Host) (id : SocketId) : h.Spends (h.shutdownWrite id).2 :=
  spends_callSocket (.of_eq rfl rfl rfl rfl)

theorem spends_setNoDelay (h : Host) (id : SocketId) : h.Spends (h.setNoDelay id).2 :=
  spends_callSocket (.of_eq rfl rfl rfl rfl)

/-- Unless it would block, a call of `accept` uses a visitor up. -/
theorem visitors_accept (h : Host) (id : SocketId) (found : (h.accept id).1 ≠ .error .wouldBlock) :
    ((h.accept id).2.socket id).visitors.length + 1 = (h.socket id).visitors.length := by
  have visitors : ((h.accept id).2.socket id).visitors = (h.socket id).visitors.tail := by
    have set := socket_setSocket h id id (h.socket id).accept.2
    rw [if_pos rfl] at set
    change _ = (h.socket id).accept.2.visitors
    rw [← set]
    simp only [accept]
    split <;> rfl
  rw [visitors, List.length_tail, Nat.sub_add_cancel]
  refine List.length_pos_iff.2 fun none => found ?_
  simp [accept, Socket.accept, none]

theorem spends_close (h : Host) (id : SocketId) : h.Spends (h.close id) := spends_record _ _

theorem spends_random (h : Host) : h.Spends h.random.2 := .of_eq rfl

theorem spends_create (same : h'.sockets = h.sockets) (outcome : Outcome) :
    h.Spends (h'.create outcome).2 := by
  cases outcome <;> exact .of_eq same

theorem spends_connect (h : Host) (peer : Endpoint) : h.Spends (h.connect peer).2 := by
  simp only [connect]
  apply spends_create
  rfl

theorem spends_openDatagram (h : Host) : h.Spends h.openDatagram.2 := by
  simp only [openDatagram]
  apply spends_create
  rfl

theorem spends_connectDatagram (h : Host) (id : SocketId) (peer : Endpoint) :
    h.Spends (h.connectDatagram id peer).2 := .of_eq rfl

end Host

namespace Registration

open Act

variable {α σ : Type} {s : Scene α σ}

theorem achieves_update (r : Registration) (socket : SocketId) (wanted : Option Interest) :
    Achieves (r.update socket wanted) s fun _ t =>
      ∃ host, t = { s with host } ∧ s.host.Spends host := by
  have told (host : Host) : Achieves (r.tellPoller socket wanted : Act α σ Outcome) { s with host }
      fun _ t => ∃ host', t = { s with host := host' } ∧ host.Spends host' := by
    unfold tellPoller
    split
    · exact (achieves_call _).2 ⟨_, rfl, Host.spends_callSocket (.of_eq rfl rfl rfl rfl)⟩
    · exact (achieves_call _).2 ⟨_, rfl, Host.spends_callSocket (.of_eq rfl rfl rfl rfl)⟩
    · exact (achieves_call _).2 ⟨_, rfl, Host.spends_callSocket (.of_eq rfl rfl rfl rfl)⟩
    · exact (achieves_pure _).2 ⟨_, rfl, .refl _⟩
  unfold update
  split
  · exact (achieves_pure _).2 ⟨_, rfl, .refl _⟩
  · simp only [achieves_bind, achieves_note]
    refine (told _).mono ?_
    rintro outcome _ ⟨host, rfl, spends⟩
    have spends' := (Host.spends_record s.host _).trans spends
    cases outcome <;> exact (achieves_pure _).2 ⟨_, rfl, spends'⟩

theorem achieves_cancel (r : Registration) (socket : SocketId) :
    Achieves (r.cancel socket) s fun _ t =>
      ∃ registry host, t = { s with registry, host } ∧ s.host.Spends host := by
  unfold cancel
  refine (r.achieves_update socket none).bind ?_
  rintro (kind | registration) _ ⟨host, rfl, spends⟩
  · simp only [achieves_bind, achieves_note, achieves_modify, achieves_pure]
    exact ⟨_, _, rfl, spends.trans (Host.spends_record _ _)⟩
  · simp only [achieves_bind, achieves_modify, achieves_pure]
    exact ⟨_, _, rfl, spends⟩

theorem achieves_enter (socket : SocketId) (wanted : Option Interest) (handler : Handler) :
    Achieves (enter socket wanted handler) s fun _ t =>
      ∃ registry host, t = { s with registry, host } ∧ s.host.Spends host := by
  simp only [enter, achieves_bind, achieves_modifyGet]
  refine (achieves_update _ socket wanted).mono ?_
  rintro (kind | registration) _ ⟨host, rfl, spends⟩
  · simp only [achieves_bind, achieves_modify, achieves_pure]
    exact ⟨_, _, rfl, spends⟩
  · exact (achieves_pure _).2 ⟨_, _, rfl, spends⟩

end Registration

end TunnelRelay
