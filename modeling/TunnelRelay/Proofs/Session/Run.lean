import TunnelRelay.Proofs.Flow.Tcp.Run
import TunnelRelay.Proofs.Session.Operations

/-!
# Runs of a session

A run starts a session and lets it handle events in any order, while the world around it does as it
likes, except on the session's own socket.
-/

namespace TunnelRelay

open Act

namespace Session

inductive Operation where
  | ready (readiness : Readiness)
  | flowReady (key : FlowKey) (readiness : Readiness)
  | sweep (now : Nat)

def Operation.perform : Operation → Act Session Unit Unit
  | ready readiness => onReady readiness
  | flowReady key readiness => onFlowReady key readiness
  | sweep now => Session.sweep now

/-- The scenes that a session can get into. -/
inductive Run : Scene Session Unit → Prop where
  | start {α : Type} {id : Nat} {socket : SocketId} {config : Config} {s t : Scene α Unit}
      {session : Session} (checked : config.check = .ok ()) (opened : socket < s.host.nextSocket)
      (started : Session.start id socket config s = .ok (.ok session, t)) :
      Run ⟨session, t.registry, (), t.host⟩
  | world {s : Scene Session Unit} (run : Run s) (registry : Registry) {host : Host}
      (undisturbed : Host.Aside s.self.socket s.host host) : Run { s with registry, host }
  | act {s t : Scene Session Unit} (run : Run s) {operation : Operation}
      (performed : operation.perform s = .ok ((), t)) : Run t

variable {s : Scene Session Unit}

/-- Every operation is a sequence of moves after which the session is closed or at rest. -/
theorem Operation.settles {operation : Operation} (coherent : Coherent s) (rests : Rests s) :
    Ensures operation.perform s fun _ t => Settles s t := by
  have drained (isOpen : s.self.closed = false) : s.self.framing.Drained :=
    (rests.resolve_left (by simp [isOpen])).intact.drained
  cases operation with
  | ready readiness => exact reaches_onReady coherent drained
  | flowReady key readiness => exact reaches_onFlowReady coherent drained
  | sweep now => exact reaches_sweep coherent rests

theorem Rests.world {registry : Registry} {host : Host} (rests : Rests s)
    (undisturbed : Host.Aside s.self.socket s.host host) :
    Rests { s with registry, host } := by
  refine rests.imp_right fun ⟨⟨coherent, polled, drained⟩, full, flushed, interest⟩ => ?_
  refine ⟨⟨coherent.world registry undisturbed.nextSocket_le, ?_, drained⟩, full, ?_, interest⟩
  · exact undisturbed.polled_eq.trans polled
  · exact flushed.imp_right undisturbed.lastWrite_eq.trans

theorem Run.coherent_rests (run : Run s) : Coherent s ∧ Rests s := by
  induction run with
  | start checked opened started =>
    obtain ⟨_, starts⟩ := ensures_start (Config.check_eq_ok_iff.1 checked) opened _ _ started
    have rests := starts.rests rfl
    exact ⟨rests.intact.toCoherent, .inr rests⟩
  | world _ registry undisturbed ih =>
    exact ⟨ih.1.world registry undisturbed.nextSocket_le, ih.2.world undisturbed⟩
  | act _ performed ih =>
    have settles := Operation.settles ih.1 ih.2 _ _ performed
    exact ⟨settles.reached.coherent ih.1, settles.rests ih.1 ih.2⟩

theorem Run.rests (run : Run s) : Rests s := run.coherent_rests.2

def performAll : List Operation → Act Session Unit Unit
  | [] => return ()
  | operation :: rest => do
    operation.perform
    performAll rest

theorem Run.ensures_performAll {operations : List Operation} (run : Run s) :
    Ensures (performAll operations) s fun _ t => Run t := by
  induction operations generalizing s with
  | nil => exact (ensures_pure _).2 run
  | cons operation rest ih =>
    rw [performAll, ensures_bind]
    exact fun _ t performed => ih (run.act performed)

/-- Starts a session on the first socket and lets it perform operations. -/
def enact (config : Config) (host : Host) (operations : List Operation) :
    Checked (Option (Scene Session Unit)) := do
  match ← start 1 0 config (⟨(), {}, (), host⟩ : Scene Unit Unit) with
  | (.error _, _) => return none
  | (.ok session, s) =>
    let (_, t) ← performAll operations ⟨session, s.registry, (), s.host⟩
    return some t

def enacts (config : Config) (host : Host) (operations : List Operation)
    (p : Scene Session Unit → Bool) : Bool :=
  match enact config host operations with
  | .ok (some t) => p t
  | _ => false

theorem exists_run_of_enacts {config : Config} {host : Host} {operations : List Operation}
    {p : Scene Session Unit → Bool} (checked : config.check = .ok ()) (opened : 0 < host.nextSocket)
    (h : enacts config host operations p = true) : ∃ t, Run t ∧ p t = true := by
  unfold enacts at h
  split at h
  · next t enacted =>
    simp only [enact, checked_bind_eq_ok] at enacted
    obtain ⟨⟨result, s⟩, started, enacted⟩ := enacted
    split at enacted
    · cases enacted
    · next session s' same =>
      cases same
      simp only [checked_bind_eq_ok] at enacted
      obtain ⟨⟨_, t'⟩, performed, enacted⟩ := enacted
      cases enacted
      exact ⟨_, (Run.start checked opened started).ensures_performAll _ _ performed, h⟩
  · cases h

end Session

end TunnelRelay
