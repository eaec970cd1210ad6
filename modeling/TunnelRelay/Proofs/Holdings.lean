import Mathlib.Data.List.Perm.Basic
import TunnelRelay.Proofs.SocketCalls

/-!
# Sockets and their entries

Every socket of the relay is held by someone, and has an entry in the table of handlers for as long as
its holder wants to hear of it. What a component does to its own holdings leaves those of all others
as they are. A token that was once given to a socket is never given to another one.
-/

namespace TunnelRelay

/-- A socket, and its token and handler in the table if it has an entry there. -/
structure Holding where
  socket : SocketId
  row? : Option (Nat × Handler)

/-- The sockets that are held are open, and the table has their entries and no others. Whenever the
poller was told of a token, it was for the socket that the token still belongs to, if to any. -/
structure Kept (r : Registry) (h : Host) (held : List Holding) : Prop where
  entries : r.handlers.Perm (held.filterMap Holding.row?)
  tokens : (r.handlers.map Prod.fst).Nodup
  below : ∀ entry ∈ r.handlers, entry.1 < r.nextToken
  sockets : (held.map Holding.socket).Nodup
  opened : ∀ x ∈ held, x.socket < h.nextSocket ∧ .close x.socket ∉ h.calls
  numbered : ∀ socket, .close socket ∈ h.calls → socket < h.nextSocket
  told_lt : ∀ e ∈ h.calls, ∀ token, e.token? = some token → token < r.nextToken
  told_eq : ∀ x ∈ held, ∀ token handler, x.row? = some (token, handler) → ∀ e ∈ h.calls,
    e.token? = some token → e.socket? = some x.socket

theorem kept_nil {h : Host} (unused : h.calls = []) : Kept {} h [] where
  entries := .refl _
  tokens := List.nodup_nil
  below := List.forall_mem_nil _
  sockets := List.nodup_nil
  opened := List.forall_mem_nil _
  numbered := by simp [unused]
  told_lt := by simp [unused]
  told_eq := List.forall_mem_nil _

namespace Kept

variable {r : Registry} {h h' : Host} {held held' : List Holding} {calls : List Event}
  {socket : SocketId} {row? : Option (Nat × Handler)} {handler : Handler} {token : Nat}

theorem perm (hk : Kept r h held) (hp : held.Perm held') : Kept r h held' where
  entries := hk.entries.trans (hp.filterMap _)
  tokens := hk.tokens
  below := hk.below
  sockets := (hp.map _).nodup_iff.1 hk.sockets
  opened x mem := hk.opened x (hp.mem_iff.2 mem)
  numbered := hk.numbered
  told_lt := hk.told_lt
  told_eq x mem := hk.told_eq x (hp.mem_iff.2 mem)

theorem mem_calls (added : h.Adds calls h') (quiet : ∀ e ∈ calls, e.closes? = none)
    (closed : .close socket ∈ h'.calls) : .close socket ∈ h.calls := by
  rw [added.calls_eq, List.mem_append, List.mem_reverse] at closed
  rcases closed with now | before
  · cases quiet _ now
  · exact before

private theorem calls_told (hk : Kept r h held) (added : h.Adds calls h')
    (quiet : ∀ e ∈ calls, e.closes? = none)
    (told : ∀ e ∈ calls, ∀ token, e.token? = some token → token < r.nextToken ∧
      ∀ x ∈ held, ∀ handler, x.row? = some (token, handler) → e.socket? = some x.socket) :
    Kept r h' held where
  entries := hk.entries
  tokens := hk.tokens
  below := hk.below
  sockets := hk.sockets
  opened x mem := by
    obtain ⟨lt, isOpen⟩ := hk.opened x mem
    exact ⟨Nat.lt_of_lt_of_le lt added.nextSocket_le, fun closed =>
      isOpen (mem_calls added quiet closed)⟩
  numbered socket closed :=
    Nat.lt_of_lt_of_le (hk.numbered socket (mem_calls added quiet closed)) added.nextSocket_le
  told_lt e mem token known := by
    rw [added.calls_eq, List.mem_append, List.mem_reverse] at mem
    exact mem.elim (fun now => (told e now token known).1) fun before =>
      hk.told_lt e before token known
  told_eq x mem token handler entry e call known := by
    rw [added.calls_eq, List.mem_append, List.mem_reverse] at call
    exact call.elim (fun now => (told e now token known).2 x mem handler entry)
      (fun before => hk.told_eq x mem token handler entry e before known)

/-- Calls that concern no socket leave all holdings as they are. -/
theorem adds (hk : Kept r h held) (added : h.Adds calls h')
    (quiet : ∀ e ∈ calls, e.socket? = none) : Kept r h' held := by
  refine hk.calls_told added (fun e mem => Event.closes?_of_socket? (quiet e mem)) ?_
  intro e mem token told
  obtain ⟨socket, call⟩ := Event.exists_socket?_of_token? told
  rw [quiet e mem] at call
  cases call

/-- Whoever holds a socket may make calls on it, and tell the poller of its entry. -/
theorem keepTo (hk : Kept r h (⟨socket, row?⟩ :: held)) (added : h.Adds calls h')
    (own : Event.KeepTo calls socket (row?.map Prod.fst)) :
    Kept r h' (⟨socket, row?⟩ :: held) := by
  refine hk.calls_told added (fun e mem => (own e mem).1) fun e mem _ told => ?_
  obtain ⟨-, onSocket, onToken⟩ := own e mem
  obtain ⟨⟨token, handler⟩, rfl, rfl⟩ := Option.map_eq_some_iff.1 (onToken _ told)
  obtain ⟨found, call⟩ := Event.exists_socket?_of_token? told
  have entries : r.handlers.Perm ((token, handler) :: held.filterMap Holding.row?) := hk.entries
  -- The tokens of the table differ, so that no other holder has this one.
  have tokens := (entries.map Prod.fst).nodup_iff.1 hk.tokens
  rw [List.map_cons, List.nodup_cons] at tokens
  refine ⟨hk.below _ (entries.mem_iff.2 List.mem_cons_self), List.forall_mem_cons.2 ⟨?_, ?_⟩⟩
  · intro _ _
    rw [call, onSocket found call]
  · intro x hx handler entry
    exact absurd (List.mem_map.2 ⟨_, List.mem_filterMap.2 ⟨x, hx, entry⟩, rfl⟩) tokens.1

theorem socket_ne (hk : Kept r h (⟨socket, row?⟩ :: held)) : ∀ x ∈ held, socket ≠ x.socket := by
  have sockets := hk.sockets
  rw [List.map_cons, List.nodup_cons] at sockets
  intro x mem same
  exact sockets.1 (List.mem_map.2 ⟨x, mem, same.symm⟩)

theorem created (hk : Kept r h' held) (opened : ∀ x ∈ held, x.socket < h.nextSocket)
    (unclosed : .close h.nextSocket ∉ h'.calls) (new : h.nextSocket < h'.nextSocket) :
    Kept r h' (⟨h.nextSocket, none⟩ :: held) := by
  refine ⟨hk.entries, hk.tokens, hk.below, ?_, ?_, hk.numbered, hk.told_lt, ?_⟩
  · rw [List.map_cons, List.nodup_cons]
    refine ⟨fun mem => ?_, hk.sockets⟩
    obtain ⟨x, hx, same⟩ := List.mem_map.1 mem
    exact absurd same (Nat.ne_of_lt (opened x hx))
  · exact List.forall_mem_cons.2 ⟨⟨new, unclosed⟩, hk.opened⟩
  · refine List.forall_mem_cons.2 ⟨?_, hk.told_eq⟩
    rintro _ _ ⟨⟩

/-- A socket is entered under a token that nobody has had. -/
theorem insert (hk : Kept r h (⟨socket, none⟩ :: held)) (handler : Handler) :
    Kept (r.insert handler).2 h (⟨socket, some (r.nextToken, handler)⟩ :: held) where
  entries := (List.perm_append_singleton _ _).trans (hk.entries.cons _)
  tokens := by
    change ((r.handlers ++ [(r.nextToken, handler)]).map Prod.fst).Nodup
    rw [List.map_append, List.nodup_append]
    refine ⟨hk.tokens, List.pairwise_singleton _ _, ?_⟩
    rintro token mem _ new rfl
    obtain ⟨entry, he, rfl⟩ := List.mem_map.1 mem
    exact Nat.ne_of_lt (hk.below entry he) (by simpa using new)
  below entry mem := by
    rcases List.mem_append.1 mem with mem | mem
    · exact Nat.lt_succ_of_lt (hk.below entry mem)
    · rw [List.mem_singleton.1 mem]
      exact Nat.lt_succ_self _
  sockets := hk.sockets
  opened := by
    have opened := hk.opened
    rw [List.forall_mem_cons] at opened ⊢
    exact opened
  numbered := hk.numbered
  told_lt e mem token known := Nat.lt_succ_of_lt (hk.told_lt e mem token known)
  told_eq := by
    refine List.forall_mem_cons.2 ⟨?_, (List.forall_mem_cons.1 hk.told_eq).2⟩
    -- No call so far has told the poller of the new token.
    rintro token _ ⟨⟩ e mem known
    exact absurd (hk.told_lt e mem _ known) (Nat.lt_irrefl _)

theorem erase (hk : Kept r h (⟨socket, some (token, handler)⟩ :: held)) :
    Kept (r.erase token) h (⟨socket, none⟩ :: held) where
  entries := by
    have entries : r.handlers.Perm ((token, handler) :: held.filterMap Holding.row?) := hk.entries
    have tokens := (entries.map Prod.fst).nodup_iff.1 hk.tokens
    rw [List.map_cons, List.nodup_cons] at tokens
    have others : ∀ entry ∈ held.filterMap Holding.row?, (entry.1 != token) = true := by
      intro entry mem
      have ne : entry.1 ≠ token := fun same =>
        tokens.1 (List.mem_map.2 ⟨entry, mem, same⟩)
      simpa using ne
    -- The entry that goes is the only one with its token.
    have left := entries.filter fun entry => entry.1 != token
    rw [List.filter_cons_of_neg (by simp), List.filter_eq_self.2 others] at left
    exact left
  tokens := (List.filter_sublist.map _).nodup hk.tokens
  below entry mem := hk.below entry (List.mem_filter.1 mem).1
  sockets := hk.sockets
  opened := by
    have opened := hk.opened
    rw [List.forall_mem_cons] at opened ⊢
    exact opened
  numbered := hk.numbered
  told_lt := hk.told_lt
  told_eq := by
    refine List.forall_mem_cons.2 ⟨?_, (List.forall_mem_cons.1 hk.told_eq).2⟩
    rintro _ _ ⟨⟩

theorem close (hk : Kept r h (⟨socket, none⟩ :: held)) : Kept r (h.close socket) held := by
  have sockets := hk.sockets
  rw [List.map_cons, List.nodup_cons] at sockets
  obtain ⟨first, others⟩ := List.forall_mem_cons.1 hk.opened
  have calls_eq : (h.close socket).calls = .close socket :: h.calls := (h.adds_close socket).calls_eq
  refine ⟨hk.entries, hk.tokens, hk.below, sockets.2, ?_, ?_, ?_, ?_⟩
  · intro x mem
    refine ⟨(others x mem).1, fun closed => ?_⟩
    rw [calls_eq] at closed
    rcases List.mem_cons.1 closed with same | before
    · exact sockets.1 (List.mem_map.2 ⟨x, mem, Event.close.inj same⟩)
    · exact (others x mem).2 before
  · intro other closed
    rw [calls_eq] at closed
    rcases List.mem_cons.1 closed with same | before
    · exact Event.close.inj same ▸ first.1
    · exact hk.numbered other before
  · intro e mem token known
    rw [calls_eq] at mem
    rcases List.mem_cons.1 mem with rfl | before
    · cases known
    · exact hk.told_lt e before token known
  · intro x hx token handler entry e mem known
    rw [calls_eq] at mem
    rcases List.mem_cons.1 mem with rfl | before
    · cases known
    · exact hk.told_eq x (List.mem_cons_of_mem _ hx) token handler entry e before known

end Kept

/-- The holdings become others, and whatever else is held stays as it is, with no call on it. -/
def Exchange (r : Registry) (h : Host) (held : List Holding) (r' : Registry) (h' : Host)
    (held' : List Holding) : Prop :=
  ∀ others, Kept r h (held ++ others) →
    Kept r' h' (held' ++ others) ∧ ∀ x ∈ others, Host.Aside x.socket h h'

namespace Exchange

variable {r r' r'' : Registry} {h h' h'' : Host} {held held' held'' more : List Holding}
  {calls : List Event} {socket : SocketId} {row? : Option (Nat × Handler)} {handler : Handler}
  {token : Nat}

theorem refl (r : Registry) (h : Host) (held : List Holding) : Exchange r h held r h held :=
  fun _ hk => ⟨hk, fun _ _ => .refl _⟩

theorem trans (first : Exchange r h held r' h' held') (second : Exchange r' h' held' r'' h'' held'') :
    Exchange r h held r'' h'' held'' := by
  intro others hk
  obtain ⟨hk', aside⟩ := first others hk
  obtain ⟨hk'', aside'⟩ := second others hk'
  exact ⟨hk'', fun x mem => (aside x mem).trans (aside' x mem)⟩

theorem frame (exchange : Exchange r h held r' h' held') (more : List Holding) :
    Exchange r h (held ++ more) r' h' (held' ++ more) := by
  intro others hk
  rw [List.append_assoc] at hk ⊢
  obtain ⟨hk', aside⟩ := exchange (more ++ others) hk
  exact ⟨hk', fun x mem => aside x (List.mem_append_right _ mem)⟩

theorem perm_left (exchange : Exchange r h held r' h' held') (hp : held''.Perm held) :
    Exchange r h held'' r' h' held' :=
  fun others hk => exchange others (hk.perm (hp.append_right others))

theorem perm_right (exchange : Exchange r h held r' h' held') (hp : held'.Perm held'') :
    Exchange r h held r' h' held'' := by
  intro others hk
  obtain ⟨hk', aside⟩ := exchange others hk
  exact ⟨hk'.perm (hp.append_right others), aside⟩

theorem of_adds (added : h.Adds calls h') (quiet : ∀ e ∈ calls, e.socket? = none) :
    Exchange r h held r h' held :=
  fun _ hk => ⟨hk.adds added quiet, fun _ _ =>
    added.aside fun e mem => Event.spares_of_none (quiet e mem)⟩

theorem of_keepTo (added : h.Adds calls h')
    (own : Event.KeepTo calls socket (row?.map Prod.fst)) :
    Exchange r h [⟨socket, row?⟩] r h' [⟨socket, row?⟩] :=
  fun _ hk => ⟨hk.keepTo added own, fun x mem => added.aside (own.spares (hk.socket_ne x mem))⟩

theorem note (r : Registry) (h : Host) (held : List Holding) (notice : Notice) :
    Exchange r h held r (h.record (.notice notice)) held :=
  of_adds (Host.Adds.note (.refl h) notice) (List.forall_mem_nil _)

theorem created (made : Exchange r h held r h' held) (added : h.Adds calls h')
    (unclosed : ∀ e ∈ calls, e.closes? = none) (new : h.nextSocket < h'.nextSocket) :
    Exchange r h held r h' (⟨h.nextSocket, none⟩ :: held) := by
  intro others hk
  obtain ⟨hk', aside⟩ := made others hk
  -- Only sockets with smaller numbers have ever been closed.
  refine ⟨hk'.created (fun x mem => (hk.opened x mem).1) (fun closed => ?_) new, aside⟩
  exact Nat.lt_irrefl _ (hk.numbered _ (Kept.mem_calls added unclosed closed))

theorem insert (r : Registry) (h : Host) (socket : SocketId) (handler : Handler) :
    Exchange r h [⟨socket, none⟩] (r.insert handler).2 h
      [⟨socket, some (r.nextToken, handler)⟩] :=
  fun _ hk => ⟨hk.insert handler, fun _ _ => .refl _⟩

theorem erase (r : Registry) (h : Host) (socket : SocketId) (token : Nat) (handler : Handler) :
    Exchange r h [⟨socket, some (token, handler)⟩] (r.erase token) h [⟨socket, none⟩] :=
  fun _ hk => ⟨hk.erase, fun _ _ => .refl _⟩

theorem close (r : Registry) (h : Host) (socket : SocketId) :
    Exchange r h [⟨socket, none⟩] r (h.close socket) [] :=
  fun _ hk => ⟨hk.close, fun x mem => Host.aside_close (hk.socket_ne x mem)⟩

theorem entered (added : h.Adds calls h') (own : Event.KeepTo calls socket (some r.nextToken)) :
    Exchange r h [⟨socket, none⟩] (r.insert handler).2 h'
      [⟨socket, some (r.nextToken, handler)⟩] :=
  (insert r h socket handler).trans (of_keepTo added own)

theorem refused (added : h.Adds calls h') (own : Event.KeepTo calls socket (some r.nextToken)) :
    Exchange r h [⟨socket, none⟩] ((r.insert handler).2.erase r.nextToken) h' [⟨socket, none⟩] :=
  (entered added own).trans (erase _ h' socket r.nextToken handler)

end Exchange

end TunnelRelay
