import Mathlib.Data.List.Nodup
import TunnelRelay.Proofs.FlowTable
import TunnelRelay.Proofs.Reading

/-!
# What pulling a flow leads to

A flow that is asked to go on offers the packet that it holds back. Where the packet is taken, the flow
reads its socket, and comes to wait again only for what it has read then.
-/

namespace TunnelRelay

open Act

namespace Event

/-- The socket that something new was read from. -/
def readFrom? : Event → Option SocketId
  | read socket _ (.ok (_ :: _)) | receive socket _ (.ok _) => some socket
  | _ => none

end Event

namespace Outbox

variable {out out' : Outbox} {packet : Bytes} {taken : Bool}

theorem waiting_of_offer (h : Outlet.offer packet out = .ok (taken, out')) :
    out'.waiting = out.waiting := by
  simp only [Outlet.offer] at h
  split at h
  · cases h
    rfl
  · simp only [checked_bind_eq_ok, checked_pure_eq_ok] at h
    obtain ⟨⟨_, ring⟩, -, same⟩ := h
    cases same
    rfl

theorem taken_of_fits (fits : packet.length ≤ out.ring.remaining)
    (h : Outlet.offer packet out = .ok (taken, out')) : taken = true := by
  simp only [Outlet.offer, if_neg (Nat.not_lt.2 fits), checked_bind_eq_ok, checked_pure_eq_ok] at h
  obtain ⟨_, -, same⟩ := h
  cases same
  rfl

theorem waiting_await (key : FlowKey) (out : Outbox) : (Outlet.await key out).waiting =
    if key ∈ out.waiting then out.waiting else out.waiting ++ [key] := by
  simp only [Outlet.await]
  split <;> rfl

/-- Whoever waits already, or again, waits once. -/
theorem waiting_await_of_joins {key : FlowKey}
    (h : out'.waiting = out.waiting ∨ out'.waiting = (Outlet.await key out).waiting) :
    (Outlet.await key out').waiting = (Outlet.await key out).waiting := by
  rcases h with same | joined
  · rw [waiting_await, waiting_await, same]
  · have mem : key ∈ out'.waiting := joined ▸ mem_waiting_await key out
    rw [waiting_await, if_pos mem, joined]

/-- A flow that is refused joins those that wait. -/
theorem joins_of_offer (key : FlowKey) (h : Outlet.offer packet out = .ok (taken, out')) :
    (if taken then out' else Outlet.await key out').waiting = out.waiting ∨
      (if taken then out' else Outlet.await key out').waiting = (Outlet.await key out).waiting := by
  have waiting := waiting_of_offer h
  cases taken with
  | true => exact .inl waiting
  | false => exact .inr (waiting_await_of_joins (.inl waiting))

end Outbox

namespace Flow

variable {s t u : Scene Flow Outbox} {calls first second : List Event}

/-- What becomes of the flow's place among those that wait, by the given calls. It may join them; if it
held nothing back before, then it has read something new. -/
structure Queues (s : Scene Flow Outbox) (calls : List Event) (t : Scene Flow Outbox) : Prop where
  same : Same s.self t.self
  joins : t.out.waiting = s.out.waiting ∨ t.out.waiting = (Outlet.await s.self.key s.out).waiting
  idle : s.self.pending = false → t.self.pending = false ∧ t.out.waiting = s.out.waiting ∨
    ∃ e ∈ calls, e.readFrom? = some s.self.socket

theorem Queues.of_aside (same : Same s.self t.self) (pending : t.self.pending = s.self.pending)
    (waiting : t.out.waiting = s.out.waiting) : Queues s calls t :=
  ⟨same, .inl waiting, fun idle => .inl ⟨pending.trans idle, waiting⟩⟩

theorem Queues.trans (h : Queues s first t) (h' : Queues t second u) :
    Queues s (first ++ second) u where
  same := h.same.trans h'.same
  joins := by
    have joins := h'.joins
    rw [h.same.key_eq, Outbox.waiting_await_of_joins h.joins] at joins
    rcases joins with same | joined
    · exact same ▸ h.joins
    · exact .inr joined
  idle idle := by
    rcases h.idle idle with ⟨still, waiting⟩ | ⟨e, mem, found⟩
    · rcases h'.idle still with ⟨still', waiting'⟩ | ⟨e, mem, found⟩
      · exact .inl ⟨still', waiting'.trans waiting⟩
      · rw [h.same.socket_eq] at found
        exact .inr ⟨e, List.mem_append_right _ mem, found⟩
    · exact .inr ⟨e, List.mem_append_left _ mem, found⟩

/-- The packet that the flow holds back is taken, and the flow waits again at most for what it has read
since. -/
structure Unblocks (s : Scene Flow Outbox) (t : Scene Flow Outbox) : Prop where
  taken : ∃ packet more, s.self.reply.latestData = .ok packet ∧
    s.host.Adds (.offer packet.bytes true :: more) t.host ∧
    (t.out.waiting = s.out.waiting ∨ t.out.waiting = (Outlet.await s.self.key s.out).waiting ∧
      ∃ e ∈ more, e.readFrom? = some s.self.socket)

theorem Unblocks.of_path {f : Flow} {out : Outbox} {host : Host} {packet : Packet} {more : List Event}
    (latest : s.self.reply.latestData = .ok packet)
    (offered : Outlet.offer packet.bytes s.out = .ok (true, out))
    (called : s.host.After [.offer packet.bytes true] host) (idle : f.pending = false)
    (same : Same s.self f)
    (after : host.After more t.host) (queues : Queues ⟨f, s.registry, out, host⟩ more t) :
    Unblocks s t := by
  refine ⟨packet, more, latest, called.adds.trans after.adds, ?_⟩
  have waiting := Outbox.waiting_of_offer offered
  rcases queues.idle idle with ⟨-, still⟩ | found
  · exact .inl (still.trans waiting)
  · refine queues.joins.imp (·.trans waiting) fun joined => ⟨?_, same.socket_eq ▸ found⟩
    refine joined.trans ?_
    change (Outlet.await f.key out).waiting = _
    rw [same.key_eq, Outbox.waiting_await_of_joins (.inl waiting)]

end Flow

namespace TcpFlow

variable {stimulus : Stimulus} {f g : TcpFlow} {r r' : Registry} {out out' : Outbox} {mark : Mark}
  {steps : List Step} {s t : Scene TcpFlow Outbox}

theorem Ends.aside {ending : Ending} (h : Ends stimulus f out ending g out') :
    g.pending = f.pending ∧ out'.waiting = out.waiting := by
  cases h with
  | finished _ _ _ emits => exact ⟨emits.same.pending_eq, Outbox.waiting_of_offer emits.offered⟩
  | reset resets emits =>
    exact ⟨emits.same.pending_eq.trans resets.pending_eq, Outbox.waiting_of_offer emits.offered⟩
  | resetByDevice | confirmed | refused | disconnected => exact ⟨rfl, rfl⟩

theorem Move.queues (move : Move stimulus ⟨f, r, out⟩ mark ⟨g, r', out'⟩) (h h' : Host) :
    Flow.Queues ⟨.tcp f, r, out, h⟩ (mark.calls f) ⟨.tcp g, r', out', h'⟩ := by
  have same := move.sameFlow
  cases move with
  | opened | reopened | unconnected | acknowledged | wrote | blocked | shut | told =>
    exact .of_aside same rfl rfl
  | connected _ emits | took _ _ _ _ _ _ emits | ended _ _ _ emits | widened _ _ _ emits =>
    exact .of_aside same emits.same.pending_eq (Outbox.waiting_of_offer emits.offered)
  | missed reads _ => exact .of_aside same reads.same.pending_eq rfl
  | exhausted reads emits =>
    exact .of_aside same (emits.same.pending_eq.trans reads.same.pending_eq)
      (Outbox.waiting_of_offer emits.offered)
  | closed _ ends _ => exact .of_aside same ends.aside.1 ends.aside.2
  | delivered reads nonempty _ _ _ offered =>
    refine ⟨same, Outbox.joins_of_offer _ offered, fun _ => .inr ⟨_, List.mem_cons_self, ?_⟩⟩
    obtain ⟨b, rest, rfl⟩ := List.exists_cons_of_ne_nil nonempty
    rfl
  | retried _ pending _ offered =>
    refine ⟨same, Outbox.joins_of_offer _ offered, fun idle => ?_⟩
    exact absurd (idle.symm.trans pending) Bool.false_ne_true

theorem Path.queues (path : Path stimulus s steps t) :
    Flow.Queues (s.map .tcp) (calls steps) (t.map .tcp) := by
  induction path with
  | quiet _ => exact .of_aside (.refl _) rfl rfl
  | @move s mark g r out host move _ =>
    rw [show calls [⟨s.self, mark, g⟩] = mark.calls s.self from List.append_nil _]
    exact move.queues _ _
  | append _ _ ih ih' =>
    rw [calls_append]
    exact ih.trans ih'

theorem unblocks_pull (consistent : s.self.phase ≠ .closed → Consistent s.self)
    (isOpen : s.self.phase ≠ .closed) (pending : s.self.pending = true)
    (room : maxPacketLength ≤ s.out.ring.remaining) :
    Ensures pull s fun _ t => Flow.Unblocks (s.map .tcp) (t.map .tcp) := by
  simp only [pull, ensures_bind, ensures_self]
  rw [if_neg (by simp [pending, isClosed, isOpen])]
  simp only [ensures_bind, ensures_liftM, ensures_offer]
  intro packet latest taken out offered
  have short : packet.bytes.length ≤ maxPacketLength := (Packet.judged_of_ofBytes latest).length_le
  obtain rfl := Outbox.taken_of_fits (Nat.le_trans short room) offered
  have called := (Host.After.refl s.host).record
    (show (Event.offer packet.bytes true).isCall = true from rfl)
  rw [if_pos rfl]
  simp only [ensures_bind, ensures_say, ensures_modifySelf]
  refine ensures_maybeSendFin_of_unfinished ((consistent isOpen).unfinished pending)
    (ensures_processReceive .other ?_)
  intro steps t path _ _
  refine ensures_updateInterest .other ?_
  intro more u course
  have whole := path.append course.path
  have offers := called.note (.flow s.self.key .pendingAccepted)
  exact Flow.Unblocks.of_path (s := s.map .tcp) (f := .tcp { s.self with pending := false }) latest
    offered offers rfl ⟨rfl, rfl, rfl⟩ whole.after whole.queues

end TcpFlow

namespace UdpFlow

variable {stimulus : Stimulus} {now : Nat} {f g : UdpFlow} {r r' : Registry} {out out' : Outbox}
  {mark : Mark} {steps : List Step} {s t : Scene UdpFlow Outbox}

theorem Move.queues (move : Move stimulus now ⟨f, r, out⟩ mark ⟨g, r', out'⟩) (h h' : Host) :
    Flow.Queues ⟨.udp f, r, out, h⟩ (mark.calls f) ⟨.udp g, r', out', h'⟩ := by
  have same := move.sameFlow
  cases move with
  | stored | dropped | forwarded | unsent | missed | told => exact .of_aside same rfl rfl
  | closed _ ends _ => cases ends <;> exact .of_aside same rfl rfl
  | delivered _ _ _ offered =>
    exact ⟨same, Outbox.joins_of_offer _ offered, fun _ => .inr ⟨_, List.mem_cons_self, rfl⟩⟩
  | retried _ pending _ offered =>
    refine ⟨same, Outbox.joins_of_offer _ offered, fun idle => ?_⟩
    exact absurd (idle.symm.trans pending) Bool.false_ne_true

theorem Path.queues (path : Path stimulus s steps t) :
    Flow.Queues (s.map .udp) (calls steps) (t.map .udp) := by
  induction path with
  | quiet _ => exact .of_aside (.refl _) rfl rfl
  | @move s mark g r out host move _ =>
    rw [show calls [⟨s.self, mark, g⟩] = mark.calls s.self from List.append_nil _]
    exact move.queues _ _
  | append _ _ ih ih' =>
    rw [calls_append]
    exact ih.trans ih'

theorem unblocks_pull (isOpen : s.self.closed = false) (pending : s.self.pending = true)
    (room : maxPacketLength ≤ s.out.ring.remaining) :
    Ensures pull s fun _ t => Flow.Unblocks (s.map .udp) (t.map .udp) := by
  simp only [pull, ensures_bind, ensures_self]
  rw [if_neg (by simp [pending, isOpen])]
  simp only [ensures_bind, ensures_liftM, ensures_offer]
  intro packet latest taken out offered
  have short : packet.bytes.length ≤ maxPacketLength := (Packet.judged_of_ofBytes latest).length_le
  obtain rfl := Outbox.taken_of_fits (Nat.le_trans short room) offered
  have called := (Host.After.refl s.host).record
    (show (Event.offer packet.bytes true).isCall = true from rfl)
  rw [if_pos rfl]
  simp only [ensures_bind, ensures_modifySelf]
  refine (ensures_processReceive .other _).mono ?_
  rintro _ t ⟨steps, path, -, -⟩
  refine (reaches_updateInterest .other t).mono ?_
  rintro _ u ⟨more, passage⟩
  have whole := path.append passage.path
  exact Flow.Unblocks.of_path (s := s.map .udp) (f := .udp { s.self with pending := false }) latest
    offered called rfl ⟨rfl, rfl, rfl⟩ whole.after whole.queues

end UdpFlow

namespace Flow

variable {s : Scene Flow Outbox}

/-- Once there is room for any packet, the one that a flow holds back is taken. -/
theorem unblocks_pull (consistent : s.self.Consistent) (isOpen : s.self.isClosed = false)
    (pending : s.self.pending = true) (room : maxPacketLength ≤ s.out.ring.remaining) :
    Ensures pull s fun _ t => Unblocks s t := by
  apply ensures_byProtocol
  · rintro s rfl
    have going : s.self.phase ≠ .closed := by
      simpa [Scene.map, isClosed, TcpFlow.isClosed] using isOpen
    exact TcpFlow.unblocks_pull consistent going pending room
  · rintro s rfl
    exact UdpFlow.unblocks_pull isOpen pending room

/-- A flow that holds nothing back has nothing to do. -/
theorem ensures_pull_of_idle (idle : s.self.pending = false) : Ensures pull s fun _ t => t = s := by
  apply ensures_byProtocol
  · rintro s rfl
    replace idle : s.self.pending = false := idle
    simp only [TcpFlow.pull, ensures_bind, ensures_self, idle, Bool.not_false, Bool.true_or, if_true,
      ensures_pure]
  · rintro s rfl
    replace idle : s.self.pending = false := idle
    simp only [UdpFlow.pull, ensures_bind, ensures_self, idle, Bool.not_false, Bool.true_or, if_true,
      ensures_pure]

end Flow

namespace FlowTable

variable {tunnel : SocketId} {key : FlowKey} {s t : Scene FlowTable Outbox}

/-- What asking a flow to go on comes to, once there is room for any packet. Where nobody of the key
holds anything back, nothing happens at all. Otherwise the packet that is held back is taken, and the
flow waits again only if it has read something new since. -/
inductive Pulls (key : FlowKey) (s : Scene FlowTable Outbox) : Scene FlowTable Outbox → Prop where
  | stale (nothing : ∀ f ∈ s.self.flows, f.key = key → f.pending = false) : Pulls key s s
  | taken {f : Flow} {packet : Packet} {more : List Event} {t : Scene FlowTable Outbox}
      (mem : f ∈ s.self.flows) (key_eq : f.key = key) (pending : f.pending = true)
      (latest : f.reply.latestData = .ok packet)
      (adds : s.host.Adds (.offer packet.bytes true :: more) t.host)
      (waiting : t.out.waiting = s.out.waiting ∨
        t.out.waiting = s.out.waiting ++ [key] ∧ ∃ e ∈ more, e.readFrom? = some f.socket) :
      Pulls key s t

theorem ensures_removeIfClosed_aside {i : Nat} : Ensures (removeIfClosed i) s fun _ t =>
    t.out = s.out ∧ ∃ calls, s.host.Adds calls t.host := by
  simp only [removeIfClosed, ensures_bind, ensures_self]
  split
  · exact (ensures_pure _).2 ⟨rfl, [], .refl _⟩
  split
  · simp only [ensures_bind, ensures_modifySelf, ensures_note, ensures_tell]
    exact ⟨trivial, _, (Host.Adds.note (.refl _) _).trans (Host.adds_close _ _)⟩
  · exact (ensures_pure _).2 ⟨rfl, [], .refl _⟩

theorem pulls_pull (sound : Sound tunnel (key :: s.out.waiting) s.self.flows)
    (absent : key ∉ s.out.waiting) (room : maxPacketLength ≤ s.out.ring.remaining) :
    Ensures (pull key) s fun _ t => Pulls key s t := by
  simp only [pull, ensures_bind, ensures_self]
  split
  · next none =>
    exact (ensures_pure _).2 (.stale fun f mem same => absurd same (find?_eq_none none f mem))
  next i hi =>
  obtain ⟨f, hf, rfl⟩ := find?_eq_some hi
  obtain ⟨inside, same⟩ := List.getElem?_eq_some_iff.1 hf
  have mem : f ∈ s.self.flows := List.mem_of_getElem? hf
  have live := sound.live f mem
  simp only [onFlow, ensures_bind, ensures_self, hf, ensures_runOn]
  cases pending : f.pending with
  | true =>
    refine (Flow.unblocks_pull live.consistent live.isOpen pending room).mono ?_
    rintro _ t ⟨packet, more, latest, adds, waiting⟩
    rw [ensures_modifySelf]
    refine ensures_removeIfClosed_aside.mono ?_
    rintro _ u ⟨out_eq, calls, adds'⟩
    refine .taken mem rfl pending latest (adds.trans adds') ?_
    rw [out_eq]
    refine waiting.imp_right ?_
    rintro ⟨joined, e, among, found⟩
    refine ⟨?_, e, ?_, found⟩
    · rw [joined, Outbox.waiting_await]
      exact if_neg absent
    · exact List.mem_append_left _ among
  | false =>
    refine (Flow.ensures_pull_of_idle pending).mono ?_
    rintro _ _ rfl
    have back : s.self.flows.set i f = s.self.flows := by rw [← same, List.set_getElem_self]
    simp only [removeIfClosed, ensures_modifySelf, ensures_bind, ensures_self, back, hf, live.isOpen]
    refine (ensures_pure _).2 (.stale fun g mem' key_eq => ?_)
    rwa [List.inj_on_of_nodup_map sound.distinct mem' mem key_eq]

end FlowTable

end TunnelRelay
