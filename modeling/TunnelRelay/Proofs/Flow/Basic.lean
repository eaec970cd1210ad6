import TunnelRelay.Flow.Basic
import TunnelRelay.Proofs.Answers
import TunnelRelay.Proofs.Flow.Tcp.Consistent
import TunnelRelay.Proofs.Holdings
import TunnelRelay.Proofs.Outbox

/-!
# Turns of a flow

Whatever a flow does in its turn, it stays the flow of its key, keeps to its own socket and to its own
entry in the table of handlers, and what it adds to the outbox answers its key. A flow that holds a
packet back is among those that wait for room.
-/

namespace TunnelRelay

open Act

/-- The scene with its component as a part of another one. -/
def Scene.map {α β σ : Type} (f : α → β) (s : Scene α σ) : Scene β σ := { s with self := f s.self }

namespace Flow

def registration : Flow → Registration
  | tcp f => f.registration
  | udp f => f.registration

def reply : Flow → Reply
  | tcp f => f.reply
  | udp f => f.reply

def pending : Flow → Bool
  | tcp f => f.pending
  | udp f => f.pending

/-- The flags of an open flow agree with its phase, if it has one. -/
def Consistent : Flow → Prop
  | tcp f => f.phase ≠ .closed → f.Consistent
  | udp _ => True

/-- A flow that holds a packet back is among those that wait. -/
def Waits (f : Flow) (waiting : List FlowKey) : Prop := f.pending = true → f.key ∈ waiting

/-- What the flow puts together for the device answers its key, and so does a packet that waits. -/
structure Suits (f : Flow) : Prop where
  reply : f.reply.Suits f.key
  waiting : f.pending = true → Answers f.key f.reply.data.filled

/-- The flow's socket, which has an entry as long as the flow is open. -/
def holding (session : Nat) (f : Flow) : Holding where
  socket := f.socket
  row? := if f.isClosed then none else some (f.registration.token, .flow session f.key)

theorem exchange_close {f : Flow} (closed : f.isClosed = true) (r : Registry) (h : Host)
    (session : Nat) : Exchange r h [f.holding session] r (h.close f.socket) [] := by
  have noEntry : f.holding session = ⟨f.socket, none⟩ := by simp [holding, closed]
  rw [noEntry]
  exact .close r h f.socket

/-- What a flow may change by the given calls, wherever its packets go. -/
structure Visit {σ : Type} (s : Scene Flow σ) (calls : List Event) (t : Scene Flow σ) : Prop where
  key_eq : t.self.key = s.self.key
  socket_eq : t.self.socket = s.self.socket
  token_eq : t.self.registration.token = s.self.registration.token
  consistent : s.self.Consistent → t.self.Consistent
  called : s.host.After calls t.host
  own : Event.KeepTo calls s.self.socket (some s.self.registration.token)
  exchange (session : Nat) : Exchange s.registry s.host [s.self.holding session] t.registry t.host
    [t.self.holding session]

/-- What a flow may change in one turn by the given calls. -/
structure Turn (s : Scene Flow Outbox) (calls : List Event) (t : Scene Flow Outbox) : Prop
    extends Visit s calls t where
  waits : s.self.Waits s.out.waiting → t.self.Waits t.out.waiting
  grows : s.out.Grows calls t.out
  suits : s.self.Suits → t.self.Suits
  answers : s.self.Suits → ∀ packet ∈ Event.posted calls, Answers s.self.key packet

/-- The flow is still that of its key, its socket and its entry in the table. -/
structure Same (f g : Flow) : Prop where
  key_eq : g.key = f.key
  socket_eq : g.socket = f.socket
  token_eq : g.registration.token = f.registration.token

theorem Same.refl (f : Flow) : Same f f := ⟨rfl, rfl, rfl⟩

theorem Same.trans {f g h : Flow} (hf : Same f g) (hg : Same g h) : Same f h :=
  ⟨hg.key_eq.trans hf.key_eq, hg.socket_eq.trans hf.socket_eq, hg.token_eq.trans hf.token_eq⟩

theorem Same.keepTo {f g : Flow} {calls : List Event} (same : Same f g)
    (own : Event.KeepTo calls g.socket (some g.registration.token)) :
    Event.KeepTo calls f.socket (some f.registration.token) :=
  same.token_eq ▸ same.socket_eq ▸ own

/-- The flow stays open and keeps its entry in the table, or it ends and loses it. -/
def Enrolled (f : Flow) (r : Registry) (g : Flow) (r' : Registry) : Prop :=
  r' = r ∧ g.isClosed = false ∨ r' = r.erase f.registration.token ∧ g.isClosed = true

theorem Same.exchange {f g : Flow} {r r' : Registry} {h h' : Host} {calls : List Event}
    (same : Same f g) (isOpen : f.isClosed = false) (enrolled : f.Enrolled r g r')
    (called : h.After calls h') (own : Event.KeepTo calls f.socket (some f.registration.token))
    (session : Nat) : Exchange r h [f.holding session] r' h' [g.holding session] := by
  have before : f.holding session = ⟨f.socket, some (f.registration.token, .flow session f.key)⟩ := by
    simp [holding, isOpen]
  have kept : Exchange r h [f.holding session] r h' [f.holding session] := by
    rw [before]
    exact .of_keepTo called.adds own
  rcases enrolled with ⟨rfl, stillOpen⟩ | ⟨rfl, closed⟩
  · have after : g.holding session = f.holding session := by
      rw [before]
      simp [holding, stillOpen, same.key_eq, same.socket_eq, same.token_eq]
    rwa [after]
  · have after : g.holding session = ⟨f.socket, none⟩ := by
      simp [holding, closed, same.socket_eq]
    rw [after]
    rw [before] at kept ⊢
    exact kept.trans (.erase r h' _ _ _)

namespace Visit

variable {σ : Type} {s t u : Scene Flow σ} {calls first second : List Event}

theorem of_move (isOpen : s.self.isClosed = false) (same : Same s.self t.self)
    (enrolled : s.self.Enrolled s.registry t.self t.registry)
    (consistent : s.self.Consistent → t.self.Consistent) (called : s.host.After calls t.host)
    (own : Event.KeepTo calls s.self.socket (some s.self.registration.token)) : Visit s calls t where
  key_eq := same.key_eq
  socket_eq := same.socket_eq
  token_eq := same.token_eq
  consistent := consistent
  called := called
  own := own
  exchange := same.exchange isOpen enrolled called own

theorem trans (h : Visit s first t) (h' : Visit t second u) : Visit s (first ++ second) u where
  key_eq := h'.key_eq.trans h.key_eq
  socket_eq := h'.socket_eq.trans h.socket_eq
  token_eq := h'.token_eq.trans h.token_eq
  consistent hs := h'.consistent (h.consistent hs)
  called := h.called.trans h'.called
  own := h.own.append (h.token_eq ▸ h.socket_eq ▸ h'.own)
  exchange session := (h.exchange session).trans (h'.exchange session)

theorem of_after {host : Host} (called : s.host.After [] host) : Visit s [] { s with host } where
  key_eq := rfl
  socket_eq := rfl
  token_eq := rfl
  consistent := id
  called := called
  own := Event.keepTo_nil _ _
  exchange _ := .of_adds called.adds (List.forall_mem_nil _)

end Visit

/-- What a move does to the way out, and whether a packet waits for room after it. -/
inductive Posts {σ : Type} [Outlet σ] (f : Flow) (out : σ) : Option Sent → Bool → σ → Prop where
  | nothing : Posts f out none f.pending out
  | control {sent : Sent} {out' : σ}
      (offered : Outlet.offer sent.packet.bytes out = .ok (sent.taken, out')) :
      Posts f out (some sent) f.pending out'
  | data {sent : Sent} {out' : σ}
      (offered : Outlet.offer sent.packet.bytes out = .ok (sent.taken, out')) :
      Posts f out (some sent) (!sent.taken) (if sent.taken then out' else Outlet.await f.key out')

namespace Posts

variable {f : Flow} {sent? : Option Sent} {out out' : Outbox} {pending : Bool}
  {calls : List Event}

theorem grows (h : Posts f out sent? pending out')
    (same : Event.posted calls = Event.posted (sent?.toList.map Sent.call)) :
    out.Grows calls out' := by
  cases h with
  | nothing => exact .of_silent same
  | control offered => exact (Outbox.grows_of_offer offered).congr same
  | @data sent out'' offered =>
    cases taken : sent.taken with
    | true =>
      rw [taken] at offered
      exact (Outbox.grows_of_offer offered).congr (by simp [same, Sent.call, taken])
    | false =>
      rw [taken] at offered
      refine ((Outbox.grows_of_offer offered).trans (Outbox.grows_await f.key out'')).congr ?_
      rw [same, Event.posted_append]
      simp [Sent.call, taken, Event.posted, Event.posted?]

theorem waits (h : Posts f out sent? pending out') (hf : f.Waits out.waiting) :
    pending = true → f.key ∈ out'.waiting := by
  have grows := h.grows rfl
  cases h with
  | nothing => exact hf
  | control offered => exact fun h => grows.waiting_subset (hf h)
  | @data sent out'' offered =>
    intro refused
    have taken : sent.taken = false := by simpa using refused
    rw [taken]
    exact Outbox.mem_waiting_await f.key out''

end Posts

namespace Turn

variable {s t u : Scene Flow Outbox} {calls first second : List Event}

/-- A visit by which a flow offers one packet at most. -/
theorem of_posts {sent? : Option Sent} (visit : Visit s calls t)
    (posts : Posts s.self s.out sent? t.self.pending t.out)
    (posted_eq : Event.posted calls = Event.posted (sent?.toList.map Sent.call))
    (suits : s.self.Suits → t.self.Suits ∧
      ∀ sent, sent? = some sent → Answers s.self.key sent.packet.bytes) : Turn s calls t where
  toVisit := visit
  waits hs := by
    rw [Waits, visit.key_eq]
    exact posts.waits hs
  grows := posts.grows posted_eq
  suits hs := (suits hs).1
  answers hs packet mem := by
    rw [posted_eq] at mem
    obtain - | sent := sent?
    · cases mem
    · have same : packet = sent.packet.bytes := by
        cases taken : sent.taken <;> simp_all [Event.posted, Event.posted?, Sent.call]
      exact same ▸ (suits hs).2 sent rfl

theorem trans (h : Turn s first t) (h' : Turn t second u) : Turn s (first ++ second) u where
  toVisit := h.toVisit.trans h'.toVisit
  waits hs := h'.waits (h.waits hs)
  grows := h.grows.trans h'.grows
  suits hs := h'.suits (h.suits hs)
  answers hs packet mem := by
    rw [Event.posted_append, List.mem_append] at mem
    rcases mem with mem | mem
    · exact h.answers hs packet mem
    · exact h.key_eq ▸ h'.answers (h.suits hs) packet mem

theorem of_after {s : Scene Flow Outbox} {host : Host} (called : s.host.After [] host) :
    Turn s [] { s with host } where
  toVisit := .of_after called
  waits := id
  grows := .of_silent rfl
  suits := id
  answers _ := List.forall_mem_nil _

end Turn

/-- What comes of ending a flow: it is closed, and nothing is sent. -/
structure Ended {σ : Type} (s : Scene Flow σ) (calls : List Event) (t : Scene Flow σ) : Prop
    extends Visit s calls t where
  closed : t.self.isClosed = true
  silent : Event.posted calls = []
  out_eq : t.out = s.out

variable {α σ : Type}

theorem ensures_byProtocol {onTcp : Act TcpFlow σ Unit} {onUdp : Act UdpFlow σ Unit}
    {s : Scene Flow σ} {Q : Unit → Scene Flow σ → Prop}
    (tcp : ∀ s' : Scene TcpFlow σ, s = s'.map .tcp → Ensures onTcp s' fun _ t => Q () (t.map .tcp))
    (udp : ∀ s' : Scene UdpFlow σ, s = s'.map .udp → Ensures onUdp s' fun _ t => Q () (t.map .udp)) :
    Ensures (byProtocol onTcp onUdp) s Q := by
  simp only [byProtocol, ensures_bind, ensures_self]
  obtain ⟨f | f, registry, out, host⟩ := s
  · rw [ensures_on]
    exact tcp ⟨f, registry, out, host⟩ rfl
  · rw [ensures_on]
    exact udp ⟨f, registry, out, host⟩ rfl

/-- The socket of a flow that was started. -/
def held (session : Nat) : Except Failure Flow → List Holding
  | .ok f => [f.holding session]
  | .error _ => []

/-- What comes of starting a flow: it has a socket of its own, and nothing waits for room. -/
structure Opens (session : Nat) (key : FlowKey) (request : Packet) (s : Scene α σ)
    (calls : List Event) (result : Except Failure Flow) (t : Scene α σ) : Prop where
  self_eq : t.self = s.self
  out_eq : t.out = s.out
  adds : s.host.Adds calls t.host
  own : ∀ e ∈ calls, ∀ socket, e.socket? = some socket → socket = s.host.nextSocket
  silent : Event.posted calls = []
  exchange : Exchange s.registry s.host [] t.registry t.host (held session result)
  fresh {f : Flow} (started : result = .ok f) :
    f.key = key ∧ f.socket = s.host.nextSocket ∧ f.pending = false ∧ f.isClosed = false ∧
      f.Consistent
  suits {f : Flow} {bytes : Bytes} (started : result = .ok f)
    (parsed : Packet.ofBytes bytes = .ok request)
    (routed : FlowKey.ofPacket request = .ok (some key)) : f.Suits

namespace Opens

variable {session : Nat} {key : FlowKey} {request : Packet} {s t : Scene α σ} {calls : List Event}
  {result : Except Failure Flow} {failure : Failure}

theorem of_error (self_eq : t.self = s.self) (out_eq : t.out = s.out)
    (adds : s.host.Adds calls t.host)
    (own : ∀ e ∈ calls, ∀ socket, e.socket? = some socket → socket = s.host.nextSocket)
    (silent : Event.posted calls = []) (exchange : Exchange s.registry s.host [] t.registry t.host []) :
    Opens session key request s calls (.error failure) t :=
  ⟨self_eq, out_eq, adds, own, silent, exchange, nofun, nofun⟩

theorem spares {socket : SocketId} (h : Opens session key request s calls result t)
    (opened : socket < s.host.nextSocket) : ∀ e ∈ calls, e.Spares socket :=
  fun e mem he => Nat.ne_of_lt opened (h.own e mem _ he)

end Opens

end Flow

end TunnelRelay
