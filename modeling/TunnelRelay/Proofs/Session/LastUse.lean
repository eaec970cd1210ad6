import Mathlib.Order.Bounds.Basic
import TunnelRelay.Proofs.Session.Idle

/-!
# When a flow was last in use

The packets of a device are told apart in the bytes that are read from its tunnel, and each of them is
there at the time of the read that ends it. The last time at which a UDP flow was in use is the last
time at which a packet with its key was there or a datagram passed its socket.
-/

namespace TunnelRelay

open Act

variable {tunnel : SocketId} {log since : List (Nat × Event)} {packets : List (Nat × Bytes)}
  {now : Nat} {calls : List Event} {more : List Bytes} {held rest : Bytes}

/-- Nothing in a log is later than now when what happens now is added to what was there. -/
theorem stamps_le {α : Type} {past : List (Nat × α)} (le : ∀ x ∈ past, x.1 ≤ now) (new : List α) :
    ∀ x ∈ past ++ new.map (now, ·), x.1 ≤ now := by
  refine List.forall_mem_append.2 ⟨le, fun x mem => ?_⟩
  obtain ⟨_, -, rfl⟩ := List.mem_map.1 mem
  exact Nat.le_refl _

/-- The packets that have arrived on a tunnel by the calls since it was opened, each with its time, and
the bytes that make no packet yet. -/
inductive Arrivals (tunnel : SocketId) :
    List (Nat × Event) → List (Nat × Bytes) → Bytes → Prop where
  | opened : Arrivals tunnel [] [] []
  | call {log : List (Nat × Event)} {packets : List (Nat × Bytes)} {held : Bytes}
      (h : Arrivals tunnel log packets held) (time : Nat) {e : Event} {more : List Bytes} {rest : Bytes}
      (splits : Splits (held ++ e.arrived tunnel) more rest) :
      Arrivals tunnel (log ++ [(time, e)]) (packets ++ more.map (time, ·)) rest

namespace Arrivals

theorem unfinished (h : Arrivals tunnel log packets held) : ∀ n, Prospect.of held ≠ .packet n := by
  cases h with
  | opened => exact fun n seen => by cases seen
  | call _ _ splits => exact splits.unfinished

theorem le (h : Arrivals tunnel log packets held) (past : ∀ x ∈ log, x.1 ≤ now) :
    ∀ x ∈ packets, x.1 ≤ now := by
  induction h with
  | opened => exact List.forall_mem_nil _
  | call _ time _ ih =>
    obtain ⟨before, last⟩ := List.forall_mem_append.1 past
    refine List.forall_mem_append.2 ⟨ih before, fun x mem => ?_⟩
    obtain ⟨_, -, rfl⟩ := List.mem_map.1 mem
    exact last (time, _) (List.mem_singleton_self _)

/-- Calls that are made at one time bring in the packets of all the bytes that they read. -/
theorem append (h : Arrivals tunnel log packets held)
    (splits : Splits (held ++ calls.flatMap (Event.arrived tunnel)) more rest) :
    Arrivals tunnel (log ++ calls.map (now, ·)) (packets ++ more.map (now, ·)) rest := by
  induction calls generalizing log packets held more with
  | nil =>
    rw [List.flatMap_nil, List.append_nil] at splits
    obtain ⟨rfl, rfl⟩ := splits.unique (.rest h.unfinished)
    simpa using h
  | cons e calls ih =>
    obtain ⟨first, left, start⟩ := Splits.exists_splits (held ++ e.arrived tunnel)
    obtain ⟨later, rest', goesOn⟩ :=
      Splits.exists_splits (left ++ calls.flatMap (Event.arrived tunnel))
    rw [List.flatMap_cons, ← List.append_assoc] at splits
    obtain ⟨rfl, rfl⟩ := splits.unique (start.append goesOn)
    simpa using ih (h.call now start) goesOn

end Arrivals

namespace UdpFlow

/-- The times at which a packet of the device reached the flow or a datagram passed its socket. -/
def uses (log : List (Nat × Event)) (packets : List (Nat × Bytes)) (f : UdpFlow) : Set Nat :=
  {time | (∃ packet, (time, packet) ∈ packets ∧ addressed? packet = some f.key) ∨
    ∃ e, (time, e) ∈ log ∧ e.passes f.socket = true}

variable {f g : UdpFlow} {time : Nat}

theorem uses_congr (key_eq : g.key = f.key) (socket_eq : g.socket = f.socket) :
    g.uses log packets = f.uses log packets := by
  rw [uses, uses, key_eq, socket_eq]

theorem mem_uses_append : time ∈ f.uses (log ++ calls.map (now, ·)) (packets ++ more.map (now, ·)) ↔
    time ∈ f.uses log packets ∨ time = now ∧
      ((∃ packet ∈ more, addressed? packet = some f.key) ∨ ∃ e ∈ calls, e.passes f.socket = true) := by
  simp only [uses, Set.mem_ofPred_eq, List.mem_append, List.mem_map, Prod.mk.injEq]
  constructor
  · rintro (⟨packet, before | ⟨_, mem, rfl, rfl⟩, own⟩ | ⟨e, before | ⟨_, mem, rfl, rfl⟩, passes⟩)
    · exact .inl (.inl ⟨packet, before, own⟩)
    · exact .inr ⟨rfl, .inl ⟨_, mem, own⟩⟩
    · exact .inl (.inr ⟨e, before, passes⟩)
    · exact .inr ⟨rfl, .inr ⟨_, mem, passes⟩⟩
  · rintro ((⟨packet, before, own⟩ | ⟨e, before, passes⟩) | ⟨rfl, ⟨packet, mem, own⟩ | ⟨e, mem, passes⟩⟩)
    · exact .inl ⟨packet, .inl before, own⟩
    · exact .inr ⟨e, .inl before, passes⟩
    · exact .inl ⟨packet, .inr ⟨packet, mem, rfl, rfl⟩, own⟩
    · exact .inr ⟨e, .inr ⟨e, mem, rfl, rfl⟩, passes⟩

theorem uses_append_of_idle (unasked : ¬ ∃ packet ∈ more, addressed? packet = some f.key)
    (silent : ∀ e ∈ calls, e.passes f.socket = false) :
    f.uses (log ++ calls.map (now, ·)) (packets ++ more.map (now, ·)) = f.uses log packets := by
  refine Set.ext fun time => mem_uses_append.trans (or_iff_left ?_)
  rintro ⟨-, asked | ⟨e, mem, passes⟩⟩
  · exact unasked asked
  · rw [silent e mem] at passes
    cases passes

theorem uses_le (past : ∀ x ∈ log, x.1 ≤ now) (past' : ∀ x ∈ packets, x.1 ≤ now) :
    ∀ time ∈ f.uses log packets, time ≤ now := by
  rintro time (⟨packet, mem, -⟩ | ⟨e, mem, -⟩)
  · exact past' _ mem
  · exact past _ mem

end UdpFlow

namespace Session

/-- What a session has seen since it started, and that its UDP flows know when they were last used. -/
structure Dates (since : List (Nat × Event)) (packets : List (Nat × Bytes)) (session : Session) :
    Prop where
  arrivals : Arrivals session.socket since packets session.framing.held
  flows : ∀ f, .udp f ∈ session.table.flows →
    f.idleTimeout = session.table.config.udpIdleTimeout ∧ IsGreatest (f.uses since packets) f.idleSince

theorem Dates.serves {s t : Session} (h : Dates since packets s) (past : ∀ x ∈ since, x.1 ≤ now)
    (serves : Serves more now calls s t) :
    Dates (since ++ calls.map (now, ·)) (packets ++ more.map (now, ·)) t where
  arrivals := by
    rw [serves.socket_eq]
    exact h.arrivals.append serves.splits
  flows g mem := by
    have latest {f : UdpFlow} {time : Nat}
        (used : time ∈ f.uses (since ++ calls.map (now, ·)) (packets ++ more.map (now, ·))) :
        time ≤ now := by
      rcases UdpFlow.mem_uses_append.1 used with before | ⟨rfl, -⟩
      · exact UdpFlow.uses_le past (h.arrivals.le past) _ before
      · exact Nat.le_refl _
    rw [serves.config_eq]
    cases serves.flows g mem with
    | opened asked since timeout =>
      rw [since]
      exact ⟨timeout, UdpFlow.mem_uses_append.2 (.inr ⟨rfl, .inl asked⟩), fun _ => latest⟩
    | kept mem ages =>
      obtain ⟨timeout, before, greatest⟩ := h.flows _ mem
      refine ⟨ages.idleTimeout_eq.trans timeout, ?_⟩
      rcases ages.since with ⟨used, since⟩ | ⟨unasked, silent, since⟩
      · rw [since]
        refine ⟨UdpFlow.mem_uses_append.2 (.inr ⟨rfl, ?_⟩), fun _ => latest⟩
        rwa [ages.socket_eq]
      -- Nothing that happened was a use of the flow.
      · rw [since, UdpFlow.uses_append_of_idle unasked (ages.socket_eq ▸ silent),
          UdpFlow.uses_congr ages.key_eq ages.socket_eq]
        exact ⟨before, greatest⟩

/-- The session has been dated since its tunnel was accepted. -/
def Dated (listener : SocketId) (log : List (Nat × Event)) (session : Session) : Prop :=
  ∃ before time since packets, log = before ++ (time, .accept listener (.ok session.socket)) :: since ∧
    Dates since packets session

theorem Dated.unfinished {listener : SocketId} {session : Session} (h : Dated listener log session) :
    ∀ n, Prospect.of session.framing.held ≠ .packet n := by
  obtain ⟨_, _, _, _, -, dates⟩ := h
  exact dates.arrivals.unfinished

theorem Dated.serves {listener : SocketId} {s t : Session} (h : Dated listener log s)
    (past : ∀ x ∈ log, x.1 ≤ now) (serves : Serves more now calls s t) :
    Dated listener (log ++ calls.map (now, ·)) t := by
  obtain ⟨before, time, since, packets, rfl, dates⟩ := h
  refine ⟨before, time, _, _, ?_, dates.serves (fun x mem => past x ?_) serves⟩
  · rw [serves.socket_eq, List.append_assoc, List.cons_append]
  · exact List.mem_append_right _ (List.mem_cons_of_mem _ mem)

/-- A session on whose sockets nothing was called stays dated. -/
theorem Dated.of_spares {listener : SocketId} {session : Session} (h : Dated listener log session)
    (past : ∀ x ∈ log, x.1 ≤ now) (spares : ∀ x ∈ session.holdings, ∀ e ∈ calls, e.Spares x.socket) :
    Dated listener (log ++ calls.map (now, ·)) session :=
  h.serves past (serves_of_spares h.unfinished spares)

/-- A session starts with an empty table, and nothing is read meanwhile. -/
theorem starts_empty {α : Type} {id : Nat} {socket : SocketId} {config : Config} {s : Scene α Unit} :
    Ensures (start id socket config) s fun result t =>
      t.self = s.self ∧ t.host.clock = s.host.clock ∧
      (∃ calls, s.host.Adds calls t.host ∧ ∀ e ∈ calls, e.arrived socket = []) ∧
      ∀ session, result = .ok session → session.socket = socket ∧ session.framing = {} ∧
        session.table = { session := id, config } := by
  simp only [start, ensures_bind]
  apply Registration.ensures_enter
  · intro host called
    simp only [ensures_bind, ensures_note, ensures_liftM, ensures_pure]
    intro ring _
    refine ⟨trivial, called.clock_eq, ⟨_, (called.note _).adds, List.forall_mem_singleton.2 rfl⟩, ?_⟩
    rintro _ ⟨⟩
    exact ⟨rfl, rfl, rfl⟩
  · intro kind host called
    simp only [ensures_bind, ensures_tell, ensures_pure]
    refine ⟨trivial, called.clock_eq, ⟨_, called.adds.trans (Host.adds_close _ _), ?_⟩, by rintro _ ⟨⟩⟩
    exact List.forall_mem_append.2
      ⟨List.forall_mem_singleton.2 rfl, List.forall_mem_singleton.2 rfl⟩

/-- A session that has just been started is dated, whatever was called that is no read. -/
theorem dated_of_start {listener : SocketId} {session : Session} (framing : session.framing = {})
    (flows : session.table.flows = [])
    (unread : ∀ e ∈ calls, e.arrived session.socket = []) :
    Dated listener (log ++ (.accept listener (.ok session.socket) :: calls).map (now, ·)) session := by
  have arrivals : Arrivals session.socket ([] ++ calls.map (now, ·)) ([] ++ [].map (now, ·))
      session.framing.held := by
    refine Arrivals.opened.append ?_
    rw [List.flatMap_eq_nil_iff.2 unread, framing, Framing.held_empty]
    exact .rest partial_nil.prospect.1
  refine ⟨log, now, _, _, rfl, arrivals, ?_⟩
  rw [flows]
  exact fun f mem => by cases mem

end Session

end TunnelRelay
