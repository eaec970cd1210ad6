import Mathlib.Data.List.Nodup
import TunnelRelay.Proofs.FlowTable.Sweep
import TunnelRelay.Proofs.Reactor.Registrations

/-!
# What a sweep does to the sessions

When a sweep is due it ends the flows that have expired, in all sessions, and sets the time of the next
one. Nothing else changes: every other flow stays in its place, and so do all sessions.
-/

namespace TunnelRelay

open Act

namespace Session

def swept (now : Nat) (session : Session) : Session :=
  { session with table := session.table.swept now }

theorem ensures_sweep_swept {s : Scene Session Unit} {now : Nat} (isOpen : s.self.closed = false)
    (live : ∀ f ∈ s.self.table.flows, f.isClosed = false) :
    Ensures (sweep now) s fun _ t => t.self = s.self.swept now ∧
      Flow.Cleared (s.self.table.lapsed now) s.registry s.host t.registry t.host := by
  simp only [sweep, ensures_bind, ensures_self]
  rw [if_neg (by simp [isOpen]), ensures_withTable]
  refine (FlowTable.ensures_sweep_loses live).mono ?_
  rintro _ _ ⟨u, loses, rfl⟩
  exact ⟨by rw [loses.out_eq]; rfl, loses.cleared⟩

end Session

namespace Reactor

/-- The flows that a sweep ends, with the numbers of their sessions. -/
def lapsed (now : Nat) (r : Reactor) : List (Nat × Flow) :=
  r.sessions.flatMap fun entry => (entry.2.table.lapsed now).map (entry.1, ·)

def swept (now : Nat) (r : Reactor) : Reactor :=
  { r with sessions := r.sessions.map fun entry => (entry.1, entry.2.swept now) }

variable {s t : Scene Reactor Unit} {now : Nat}

private theorem ensures_sweepSessions_swept (done : List (Nat × Session))
    {todo : List (Nat × Session)} (split : s.self.sessions = done ++ todo)
    (numbers : (s.self.sessions.map Prod.fst).Nodup)
    (isOpen : ∀ entry ∈ todo, entry.2.closed = false)
    (live : ∀ entry ∈ todo, ∀ f ∈ entry.2.table.flows, f.isClosed = false) :
    Ensures (sweepSessions now (todo.map Prod.fst)) s fun _ t =>
      t.self = { s.self with
        sessions := done ++ todo.map fun entry => (entry.1, entry.2.swept now) } ∧
      Flow.Cleared (todo.flatMap fun entry => entry.2.table.lapsed now) s.registry s.host
        t.registry t.host := by
  induction todo generalizing s done with
  | nil =>
    refine (ensures_pure _).2 ⟨?_, .refl _ _⟩
    rw [List.map_nil, ← split]
  | cons entry todo ih =>
    obtain ⟨id, session⟩ := entry
    obtain ⟨isOpen, others⟩ := List.forall_mem_cons.1 isOpen
    obtain ⟨live, live'⟩ := List.forall_mem_cons.1 live
    have mem : (id, session) ∈ s.self.sessions := by
      rw [split]
      exact List.mem_append_right _ List.mem_cons_self
    have apart : ∀ entry ∈ done ++ todo, entry.1 ≠ id := by
      rw [split, (List.perm_middle.map _).nodup_iff, List.map_cons, List.nodup_cons] at numbers
      exact fun entry mem same => numbers.1 (List.mem_map.2 ⟨entry, mem, same⟩)
    rw [List.map_cons, sweepSessions, ensures_bind]
    refine (onSession_inv _).mono ?_
    rintro _ t (⟨absent, -⟩ | ⟨session', u, mem', performed, rfl⟩)
    · exact absurd rfl (absent _ mem)
    obtain rfl : session' = session := session_eq apart (split ▸ mem') rfl
    obtain ⟨swept, cleared⟩ := Session.ensures_sweep_swept isOpen live _ _ performed
    have place := sessions_putSession split apart u.self
    have numbers' : ((putSession id u.self s.self).sessions.map Prod.fst).Nodup := by
      rw [place]
      rw [split] at numbers
      simpa using numbers
    rw [List.append_cons] at place
    refine (ih _ place numbers' others live').mono ?_
    rintro _ v ⟨self, cleared'⟩
    refine ⟨?_, cleared.trans cleared'⟩
    rw [self, swept, List.append_assoc]
    rfl

/-- What comes of a sweep at the time `now`. The flows that have expired are gone, with their entries
among the handlers, and their sockets are closed. -/
structure Sweeps (now : Nat) (s t : Scene Reactor Unit) : Prop where
  self_eq : t.self = { s.self.swept now with nextSweep := now + s.self.config.sweepInterval }
  registry_eq : t.registry = { s.registry with
    handlers := s.registry.handlers.filter fun entry =>
      entry ∉ (s.self.lapsed now).map fun x => (x.2.registration.token, .flow x.1 x.2.key) }
  called : ∃ calls, s.host.After calls t.host ∧
    Flow.Discards ((s.self.lapsed now).map Prod.snd) calls

theorem flows_of_lapsed (r : Reactor) : (r.lapsed now).map Prod.snd =
    r.sessions.flatMap fun entry => entry.2.table.lapsed now := by
  simp [lapsed, List.map_flatMap, Function.comp_def]

theorem mem_entries_of_lapsed {r : Reactor} {x : Nat × Flow} (mem : x ∈ r.lapsed now) :
    (x.2.registration.token, .flow x.1 x.2.key) ∈ r.entries := by
  obtain ⟨entry, held, expired⟩ := List.mem_flatMap.1 mem
  obtain ⟨f, found, rfl⟩ := List.mem_map.1 expired
  refine List.mem_cons_of_mem _ (List.mem_flatMap.2 ⟨entry, held, List.mem_cons_of_mem _ ?_⟩)
  exact List.mem_map_of_mem (List.mem_filter.1 found).1

private theorem without_lapsed (exact' : Exact s) :
    s.registry.without (((s.self.lapsed now).map Prod.snd).map fun f => f.registration.token) =
      { s.registry with handlers := s.registry.handlers.filter fun entry =>
          entry ∉ (s.self.lapsed now).map fun x => (x.2.registration.token, .flow x.1 x.2.key) } := by
  refine congrArg (Registry.mk · _) (List.filter_congr fun entry mem => ?_)
  refine decide_eq_decide.2 (not_congr ⟨fun token => ?_, fun own => ?_⟩)
  · rw [List.map_map] at token
    obtain ⟨x, lapsed, same⟩ := List.mem_map.1 token
    have mem' := exact'.entries.mem_iff.1 mem
    refine List.mem_map.2 ⟨x, lapsed, ?_⟩
    exact List.inj_on_of_nodup_map exact'.tokens (mem_entries_of_lapsed lapsed) mem' same
  · obtain ⟨x, lapsed, rfl⟩ := List.mem_map.1 own
    rw [List.map_map]
    exact List.mem_map.2 ⟨x, lapsed, rfl⟩

/-- A sweep that is due is made, and no other. -/
theorem ensures_sweepIfDue_sweeps (exact' : Exact s) : Ensures sweepIfDue s fun _ t =>
    (s.self.nextSweep ≤ s.host.clock → Sweeps s.host.clock s t) ∧
      (s.host.clock < s.self.nextSweep → t = s) := by
  simp only [sweepIfDue, ensures_bind, ensures_now, ensures_self]
  split
  · next due =>
    simp only [ensures_bind, ensures_note, ensures_modifySelf]
    have noted := (Host.After.refl s.host).note (.sweeping s.self.sessions.length)
    generalize s.host.record (.notice (.sweeping s.self.sessions.length)) = host at noted
    refine (ensures_sweepSessions_swept [] (s := { s with host }) rfl exact'.numbers
      (fun entry mem => (exact'.sessions entry mem).1) exact'.flows).mono ?_
    rintro _ t ⟨self, cleared⟩
    refine ⟨fun _ => ?_, fun early => absurd due (Nat.not_le_of_lt early)⟩
    rw [← flows_of_lapsed] at cleared
    obtain ⟨registry, calls, called, discards⟩ := cleared
    have entries := registry.trans (without_lapsed (s := s) exact')
    exact ⟨by rw [self]; rfl, entries, calls, noted.trans called, discards⟩
  · next early =>
    exact (ensures_pure _).2 ⟨fun due => absurd due early, fun _ => rfl⟩

end Reactor

end TunnelRelay
