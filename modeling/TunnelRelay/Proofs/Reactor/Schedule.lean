import TunnelRelay.Proofs.Reactor.LastUse
import TunnelRelay.Proofs.Reactor.Sweep

/-!
# When idle flows are swept out

The reactor waits no longer than until the next sweep, and after each wait it sweeps if that is due. A
sweep ends the UDP flows that have been idle for too long, measured from the last time at which a packet
of the device or a datagram passed, as the log of all calls tells it, and no other flows.
-/

namespace TunnelRelay

open Act

/-- Nothing is read when flows are ended. -/
theorem Flow.Discards.unread {flows : List Flow} {calls : List Event} (h : Discards flows calls) :
    ∀ e ∈ calls, ∀ socket, e.arrived socket = [] := by
  intro e mem socket
  obtain ⟨f, -, rfl | ⟨outcome, rfl⟩⟩ := h.only e mem <;> rfl

/-- Which flows of the session expire at the time `now`, as all calls since its tunnel was accepted tell
it: UDP flows that were last used at least `limit` before and hold nothing, and no others. -/
def Session.Expires (listener : SocketId) (log : List (Nat × Event)) (limit now : Nat)
    (session : Session) : Prop :=
  ∃ before time since packets, log = before ++ (time, .accept listener (.ok session.socket)) :: since ∧
    Arrivals session.socket since packets session.framing.held ∧
    ∀ flow ∈ session.table.flows, match flow with
      | .tcp _ => flow.isExpired now = false
      | .udp f => ∃ last, IsGreatest (f.uses since packets) last ∧
        (flow.isExpired now = true ↔ limit ≤ now - last ∧ f.ring.isEmpty = true)

theorem Session.Dated.expires {listener : SocketId} {log : List (Nat × Event)} {session : Session}
    (h : session.Dated listener log) (now : Nat) :
    session.Expires listener log session.table.config.udpIdleTimeout now := by
  obtain ⟨before, time, since, packets, all, arrivals, flows⟩ := h
  refine ⟨before, time, since, packets, all, arrivals, fun flow mem => ?_⟩
  cases flow with
  | tcp f => rfl
  | udp f =>
    obtain ⟨timeout, greatest⟩ := flows f mem
    refine ⟨f.idleSince, greatest, ?_⟩
    rw [← timeout, Flow.isExpired, UdpFlow.isExpired, Bool.and_eq_true, decide_eq_true_iff]

namespace Reactor

variable {log : List (Nat × Event)} {s t u : Scene Reactor Unit} {maxWait : Option Nat}
  {result : Except ReactorError Unit} {calls : List Event} {now : Nat}

/-- The scenes that a reactor can get into by waiting again and again, and all calls until then with the
time at which each of them was made. Between the waits time passes, and the world does as it likes. -/
inductive Chronicle : List (Nat × Event) → Scene Reactor Unit → Prop where
  | start {config : Config} {host : Host} {r : Reactor} {t : Scene Unit Unit}
      (unused : host.calls = [])
      (started : Reactor.start config ⟨(), {}, (), host⟩ = .ok (.ok r, t)) :
      Chronicle (t.host.calls.reverse.map (t.host.clock, ·)) ⟨r, t.registry, (), t.host⟩
  | world {log : List (Nat × Event)} {s : Scene Reactor Unit} (chronicle : Chronicle log s)
      {host : Host} (idle : s.host.Adds [] host) (later : s.host.clock ≤ host.clock) :
      Chronicle log { s with host }
  | wait {log : List (Nat × Event)} {s t : Scene Reactor Unit} (chronicle : Chronicle log s)
      {maxWait : Option Nat} {result : Except ReactorError Unit}
      (performed : once maxWait s = .ok (result, t)) {calls : List Event}
      (adds : s.host.Adds calls t.host) : Chronicle (log ++ calls.map (t.host.clock, ·)) t

/-- What holds of a reactor and the log of its calls whenever it waits. -/
structure Timely (log : List (Nat × Event)) (s : Scene Reactor Unit) : Prop where
  run : Run s
  past : ∀ x ∈ log, x.1 ≤ s.host.clock
  soon : s.self.nextSweep ≤ s.host.clock + s.self.config.sweepInterval
  dated : Dated log s.self

theorem nextSweep_of_start {config : Config} {s : Scene Unit Unit} :
    Ensures (start config) s fun result t => ∀ r, result = .ok r →
      r.nextSweep = t.host.clock + r.config.sweepInterval := by
  have failed {error : ReactorError} {t : Scene Unit Unit} : ∀ r : Reactor,
      Except.error error = Except.ok r → r.nextSweep = t.host.clock + r.config.sweepInterval := by
    rintro _ ⟨⟩
  unfold start
  split
  · exact (ensures_pure _).2 failed
  simp only [ensures_bind, ensures_call]
  split
  · exact (ensures_pure _).2 failed
  rw [ensures_bind]
  rintro (error | _) t -
  · simp only [ensures_bind, ensures_tell, ensures_pure]
    exact failed
  dsimp only
  rw [ensures_bind]
  rintro (kind | registration) u -
  · simp only [ensures_bind, ensures_tell, ensures_pure]
    exact failed
  · simp only [ensures_bind, ensures_now, ensures_pure]
    rintro _ ⟨⟩
    rfl

theorem timely_of_start {config : Config} {host : Host} {r : Reactor} {t : Scene Unit Unit}
    (unused : host.calls = []) (started : start config ⟨(), {}, (), host⟩ = .ok (.ok r, t)) :
    Timely (t.host.calls.reverse.map (t.host.clock, ·)) ⟨r, t.registry, (), t.host⟩ := by
  obtain ⟨-, empty⟩ := ensures_start unused _ _ started _ rfl
  refine ⟨.start unused started, stamps_le (List.forall_mem_nil _) _, ?_, fun entry mem => ?_⟩
  · exact Nat.le_of_eq (nextSweep_of_start _ _ started _ rfl)
  · rw [show Scene.self _ = r from rfl, empty] at mem
    cases mem

/-- What the poller yields, and the host then. -/
abbrev polled (maxWait : Option Nat) (s : Scene Reactor Unit) :
    Except ErrorKind (List (Nat × Signal)) × Host :=
  s.host.poll (some (s.self.timeout s.host.clock maxWait))

/-- A wait that is interrupted yields no signals. -/
def heard : Except ErrorKind (List (Nat × Signal)) → Except ErrorKind (List (Nat × Signal))
  | .error .interrupted => .ok []
  | result => result

theorem heard_eq_ok_iff {found : Except ErrorKind (List (Nat × Signal))}
    {signals : List (Nat × Signal)} : heard found = .ok signals ↔
      found = .ok signals ∨ found = .error .interrupted ∧ signals = [] := by
  unfold heard
  split
  · simp [eq_comm]
  · next other => exact (or_iff_left fun interrupted => other interrupted.1).symm

theorem heard_eq_error_iff {found : Except ErrorKind (List (Nat × Signal))} {kind : ErrorKind} :
    heard found = .error kind ↔ found = .error kind ∧ kind ≠ .interrupted := by
  unfold heard
  split
  · simp [eq_comm]
  · next other => exact ⟨fun same => ⟨same, fun interrupted => other (interrupted ▸ same)⟩, And.left⟩

theorem waitForSignals_apply (timeout : Option Nat) (s : Scene Reactor Unit) :
    waitForSignals timeout s =
      .ok (heard (s.host.poll timeout).1, { s with host := (s.host.poll timeout).2 }) := by
  have called : Act.call (Host.poll timeout) s =
      .ok ((s.host.poll timeout).1, { s with host := (s.host.poll timeout).2 }) := rfl
  rw [waitForSignals, bind_apply, called, ok_bind]
  generalize s.host.poll timeout = polled
  obtain ⟨found | signals, host⟩ := polled
  · cases found <;> rfl
  · rfl

/-- A wait fails, or the signals are handed out and then a sweep is made if it is due. -/
theorem once_inv : Ensures (once maxWait) s fun result t =>
    (∃ kind, heard (polled maxWait s).1 = .error kind ∧ result = .error (.poll kind) ∧
      t = { s with host := (polled maxWait s).2.record (.notice (.pollFailed (.host kind))) }) ∨
    ∃ signals u, heard (polled maxWait s).1 = .ok signals ∧
      dispatchAll signals { s with host := (polled maxWait s).2 } = .ok ((), u) ∧
      sweepIfDue u = .ok ((), t) ∧ result = .ok () := by
  simp only [once, ensures_bind, ensures_self, ensures_now]
  intro found _ waited
  rw [waitForSignals_apply] at waited
  cases waited
  cases heard (polled maxWait s).1 with
  | error kind =>
    simp only [ensures_bind, ensures_note, ensures_pure]
    exact .inl ⟨kind, rfl, rfl, rfl⟩
  | ok signals =>
    simp only [ensures_bind, ensures_pure]
    exact fun _ u dispatched _ t swept => .inr ⟨signals, u, rfl, dispatched, swept, trivial⟩

theorem adds_polled (maxWait : Option Nat) (s : Scene Reactor Unit) :
    s.host.Adds [.poll (some (s.self.timeout s.host.clock maxWait))] (polled maxWait s).2 :=
  ⟨rfl, Nat.le_refl _⟩

theorem clock_le_polled (maxWait : Option Nat) (s : Scene Reactor Unit) :
    s.host.clock ≤ (polled maxWait s).2.clock := Nat.le_add_right _ _

private theorem Run.after_poll (run : Run s) (maxWait : Option Nat) :
    Run { s with host := (polled maxWait s).2 } := by
  refine run.act (.wait (some (s.self.timeout s.host.clock maxWait))) ?_
  rw [Operation.perform, bind_apply, waitForSignals_apply]
  rfl

namespace Timely

/-- Time passes while the reactor waits. -/
theorem after_poll (h : Timely log s) (maxWait : Option Nat) :
    Timely (log ++ [.poll (some (s.self.timeout s.host.clock maxWait))].map
      ((polled maxWait s).2.clock, ·)) { s with host := (polled maxWait s).2 } := by
  have later := clock_le_polled maxWait s
  have past : ∀ x ∈ log, x.1 ≤ (polled maxWait s).2.clock := fun x mem =>
    Nat.le_trans (h.past x mem) later
  refine ⟨h.run.after_poll maxWait, stamps_le past _, ?_, fun entry mem isOpen => ?_⟩
  · exact Nat.le_trans h.soon (Nat.add_le_add_right later _)
  · obtain ⟨config, dated⟩ := h.dated entry mem isOpen
    refine ⟨config, dated.of_spares past fun x _ => List.forall_mem_singleton.2 ?_⟩
    exact Event.spares_of_none rfl

theorem ensures_dispatchAll {signals : List (Nat × Signal)} (h : Timely log s) :
    Ensures (dispatchAll signals) s fun _ t => ∃ calls, s.host.Adds calls t.host ∧
      t.host.clock = s.host.clock ∧ t.self.nextSweep = s.self.nextSweep ∧
        Timely (log ++ calls.map (t.host.clock, ·)) t := by
  obtain ⟨orderly, tidy⟩ := h.run.orderly_tidy
  intro _ t dispatched
  obtain ⟨-, -, calls, moment⟩ := moment_dispatchAll orderly tidy _ _ dispatched
  refine ⟨calls, moment.adds, moment.clock_eq, moment.nextSweep_eq,
    h.run.ensures_dispatchAll _ _ dispatched, ?_, ?_, ?_⟩
  · exact stamps_le (moment.clock_eq ▸ h.past) _
  · rw [moment.nextSweep_eq, moment.clock_eq, moment.config_eq]
    exact h.soon
  · rw [moment.clock_eq]
    exact moment.dated log h.past h.dated

end Timely

theorem Sweeps.dated (h : Sweeps now s t) (adds : s.host.Adds calls t.host)
    (past : ∀ x ∈ log, x.1 ≤ now) (dated : Dated log s.self) :
    Dated (log ++ calls.map (now, ·)) t.self := by
  obtain ⟨calls', called, discards⟩ := h.called
  obtain rfl := adds.unique called.adds
  rw [h.self_eq]
  intro entry mem isOpen
  obtain ⟨old, held, rfl⟩ := List.mem_map.1 mem
  obtain ⟨config, dates⟩ := dated old held isOpen
  have swept : Session.Serves [] now calls old.2 (old.2.swept now) := by
    refine ⟨rfl, rfl, ?_, fun g mem => ?_⟩
    · rw [List.flatMap_eq_nil_iff.2 fun e he => discards.unread e he _, List.append_nil]
      exact .rest dates.unfinished
    · exact .of_silent (List.mem_filter.1 mem).1 (by simp) fun e he => discards.silent e he _
  exact ⟨config, dates.serves past swept⟩

namespace Timely

theorem ensures_sweepIfDue (h : Timely log s) : Ensures sweepIfDue s fun _ t =>
    ∃ calls, s.host.Adds calls t.host ∧ t.host.clock = s.host.clock ∧
      Timely (log ++ calls.map (t.host.clock, ·)) t := by
  intro _ t performed
  obtain ⟨due, early⟩ := ensures_sweepIfDue_sweeps h.run.table_exact _ _ performed
  rcases Nat.lt_or_ge s.host.clock s.self.nextSweep with before | after
  · obtain rfl := early before
    refine ⟨[], .refl _, rfl, ?_⟩
    rwa [List.map_nil, List.append_nil]
  · have sweeps := due after
    obtain ⟨calls, called, -⟩ := sweeps.called
    have clock : t.host.clock = s.host.clock := called.clock_eq
    refine ⟨calls, called.adds, clock, h.run.act .sweep performed, ?_, ?_, ?_⟩
    · exact stamps_le (clock ▸ h.past) _
    · rw [sweeps.self_eq, clock]
      exact Nat.le_refl _
    · rw [clock]
      exact sweeps.dated called.adds h.past h.dated

theorem ensures_once (h : Timely log s) : Ensures (once maxWait) s fun _ t =>
    ∃ calls, s.host.Adds calls t.host ∧ Timely (log ++ calls.map (t.host.clock, ·)) t := by
  intro result t performed
  have waited := h.after_poll maxWait
  have adds := adds_polled maxWait s
  rcases once_inv _ _ performed with ⟨kind, -, -, rfl⟩ | ⟨signals, u, -, dispatched, swept, -⟩
  · exact ⟨_, adds.note _, { waited with run := waited.run.world (Host.Adds.note (.refl _) _) }⟩
  · obtain ⟨first, added, clock, -, timely⟩ := waited.ensures_dispatchAll _ _ dispatched
    obtain ⟨second, added', clock', timely'⟩ := timely.ensures_sweepIfDue _ _ swept
    refine ⟨_, (adds.trans added).trans added', ?_⟩
    rw [clock', clock] at timely'
    rw [clock', clock]
    simpa using timely'

end Timely

theorem Chronicle.timely (chronicle : Chronicle log s) : Timely log s := by
  induction chronicle with
  | start unused started => exact timely_of_start unused started
  | world _ idle later ih =>
    refine ⟨ih.run.world idle, fun x mem => Nat.le_trans (ih.past x mem) later, ?_, ih.dated⟩
    exact Nat.le_trans ih.soon (Nat.add_le_add_right later _)
  | wait _ performed adds ih =>
    obtain ⟨calls, adds', timely⟩ := ih.ensures_once _ _ performed
    rwa [adds.unique adds']

theorem timeout_le (r : Reactor) (now : Nat) (maxWait : Option Nat) :
    r.timeout now maxWait ≤ r.nextSweep - now ∧ ∀ most ∈ maxWait, r.timeout now maxWait ≤ most := by
  cases maxWait with
  | none => exact ⟨Nat.le_refl _, by rintro _ ⟨⟩⟩
  | some wait =>
    refine ⟨Nat.min_le_right _ _, ?_⟩
    rintro _ ⟨⟩
    exact Nat.min_le_left _ _

/-- What a wait that does not fail leads to: the signals are handed out in `u`, after the `first` of its
calls, and `t` is what comes of the sweep, if one is due. -/
structure Turns (log : List (Nat × Event)) (signals : List (Nat × Signal)) (maxWait : Option Nat)
    (s : Scene Reactor Unit) (first : List Event) (u t : Scene Reactor Unit) : Prop where
  dispatched : dispatchAll signals { s with host := (polled maxWait s).2 } = .ok ((), u)
  adds : s.host.Adds first u.host
  nextSweep_eq : u.self.nextSweep = s.self.nextSweep
  expires : ∀ entry ∈ u.self.sessions, entry.2.Expires u.self.listener
    (log ++ first.map (t.host.clock, ·)) u.self.config.udpIdleTimeout t.host.clock
  due : s.self.nextSweep ≤ t.host.clock → Sweeps t.host.clock u t
  early : t.host.clock < s.self.nextSweep → t = u

theorem Timely.turns (h : Timely log s) {signals : List (Nat × Signal)}
    (dispatched : dispatchAll signals { s with host := (polled maxWait s).2 } = .ok ((), u))
    (swept : sweepIfDue u = .ok ((), t)) : ∃ rest last, u.host.Adds last t.host ∧
      Turns log signals maxWait s
        (.poll (some (s.self.timeout s.host.clock maxWait)) :: rest) u t := by
  obtain ⟨rest, added, clock, next, timely⟩ :=
    (h.after_poll maxWait).ensures_dispatchAll _ _ dispatched
  obtain ⟨last, added', clock', -⟩ := timely.ensures_sweepIfDue _ _ swept
  obtain ⟨due, early⟩ := ensures_sweepIfDue_sweeps timely.run.table_exact _ _ swept
  obtain ⟨-, tidy⟩ := timely.run.orderly_tidy
  refine ⟨rest, last, added', dispatched, (adds_polled maxWait s).trans added, next, ?_, ?_, ?_⟩
  · intro entry mem
    obtain ⟨config, dated⟩ := timely.dated entry mem (tidy entry mem)
    rw [← config, clock', clock]
    rw [clock] at dated
    simpa using dated.expires _
  · rw [clock', ← next]
    exact due
  · rw [clock', ← next]
    exact early

/-- A sweep puts the next one off, and nothing else does. -/
theorem Turns.nextSweep {signals : List (Nat × Signal)} {first : List Event}
    (h : Turns log signals maxWait s first u t) (positive : 0 < t.self.config.sweepInterval) :
    t.host.clock < t.self.nextSweep ∧
      (t.self.nextSweep ≠ s.self.nextSweep ↔ s.self.nextSweep ≤ t.host.clock) := by
  rcases Nat.lt_or_ge t.host.clock s.self.nextSweep with before | after
  · have same : t.self.nextSweep = s.self.nextSweep := by rw [h.early before, h.nextSweep_eq]
    rw [same]
    exact ⟨before, iff_of_false (fun differs => differs rfl) (Nat.not_le_of_lt before)⟩
  · have self := (h.due after).self_eq
    have config : t.self.config = u.self.config := by rw [self]; rfl
    have next : t.self.nextSweep = t.host.clock + t.self.config.sweepInterval := by
      rw [config, self]
    exact ⟨by omega, iff_of_true (by omega) after⟩

theorem Chronicle.continues (chronicle : Chronicle log s)
    (performed : once maxWait s = .ok (result, t)) : ∃ calls, s.host.Adds calls t.host ∧
      Chronicle (log ++ calls.map (t.host.clock, ·)) t := by
  obtain ⟨calls, adds, -⟩ := chronicle.timely.ensures_once _ _ performed
  exact ⟨calls, adds, chronicle.wait performed adds⟩

def waits : List (Option Nat) → Act Reactor Unit Unit
  | [] => return ()
  | maxWait :: rest => do
    let _ ← once maxWait
    waits rest

theorem Chronicle.ensures_waits {maxWaits : List (Option Nat)} (chronicle : Chronicle log s) :
    Ensures (waits maxWaits) s fun _ t => ∃ log, Chronicle log t := by
  induction maxWaits generalizing log s with
  | nil => exact (ensures_pure _).2 ⟨log, chronicle⟩
  | cons maxWait rest ih =>
    rw [waits, ensures_bind]
    intro _ t performed
    obtain ⟨_, -, next⟩ := chronicle.continues performed
    exact ih next

/-- Whether the scene is as `p` says when a reactor has been started and has waited several times. -/
def watches (config : Config) (host : Host) (maxWaits : List (Option Nat))
    (p : Scene Reactor Unit → Bool) : Bool :=
  match Reactor.start config ⟨(), {}, (), host⟩ with
  | .ok (.ok r, s) => (waits maxWaits).endsAs ⟨r, s.registry, (), s.host⟩ p
  | _ => false

theorem exists_chronicle_of_watches {config : Config} {host : Host} {maxWaits : List (Option Nat)}
    {p : Scene Reactor Unit → Bool} (unused : host.calls = [])
    (h : watches config host maxWaits p = true) : ∃ log s, Chronicle log s ∧ p s = true := by
  unfold watches at h
  split at h
  · next r s started =>
    obtain ⟨t, performed, holds⟩ := exists_of_endsAs h
    obtain ⟨log, chronicle⟩ := (Chronicle.start unused started).ensures_waits _ _ performed
    exact ⟨log, t, chronicle, holds⟩
  · cases h

theorem once_of_waits (performed : waits [maxWait] s = .ok ((), t)) :
    ∃ result, once maxWait s = .ok (result, t) := by
  simp only [waits, bind_apply, checked_bind_eq_ok] at performed
  obtain ⟨⟨result, t'⟩, performed, ended⟩ := performed
  cases ended
  exact ⟨result, performed⟩

/-- The keys of all flows, session by session. -/
def keys (r : Reactor) : List (List FlowKey) :=
  r.sessions.map fun entry => entry.2.table.flows.map Flow.key

/-- A wait lasts no longer than it may and than until the next sweep. If the poller fails, nothing is
handed out, and all sessions and the time of the next sweep stay as they are. Otherwise the signals are
handed out, of which there are none if the wait was interrupted, and a sweep is made if and only if its
time has come by then. It ends exactly those UDP flows of all sessions that were last used at least the
idle timeout before and hold nothing, with their entries, and leaves everything else as it is. -/
theorem Chronicle.idle_swept (chronicle : Chronicle log s)
    (performed : once maxWait s = .ok (result, t)) (adds : s.host.Adds calls t.host) :
    (∃ wait, calls.head? = some (.poll (some wait)) ∧ wait ≤ s.self.nextSweep - s.host.clock ∧
      ∀ most ∈ maxWait, wait ≤ most) ∧
    (∀ kind, (polled maxWait s).1 = .error kind → kind ≠ .interrupted →
      result = .error (.poll kind) ∧ calls.length = 1 ∧ t.self = s.self ∧
        t.registry = s.registry) ∧
    ∀ signals, (polled maxWait s).1 = .ok signals ∨
        (polled maxWait s).1 = .error .interrupted ∧ signals = [] →
      result = .ok () ∧ t.host.clock < t.self.nextSweep ∧
        t.self.nextSweep ≤ t.host.clock + t.self.config.sweepInterval ∧
        (t.self.nextSweep ≠ s.self.nextSweep ↔ s.self.nextSweep ≤ t.host.clock) ∧
        ∃ first u, Turns log signals maxWait s first u t := by
  have timely := chronicle.timely
  obtain ⟨most, least⟩ := timeout_le s.self s.host.clock maxWait
  rcases once_inv _ _ performed with ⟨kind, failed, rfl, rfl⟩ | ⟨signals, u, heard, dispatched, swept, rfl⟩
  · obtain rfl := adds.unique ((adds_polled maxWait s).note _)
    obtain ⟨failed, notInterrupted⟩ := heard_eq_error_iff.1 failed
    refine ⟨⟨_, rfl, most, least⟩, fun kind' same _ => ?_, fun signals either => ?_⟩
    · obtain rfl := Except.error.inj (failed.symm.trans same)
      exact ⟨rfl, rfl, rfl, rfl⟩
    · rcases either with heard | ⟨interrupted, -⟩
      · cases failed.symm.trans heard
      · exact absurd (Except.error.inj (failed.symm.trans interrupted)) notInterrupted
  · obtain ⟨rest, last, added, turns⟩ := timely.turns dispatched swept
    have timely' := (chronicle.wait performed adds).timely
    obtain rfl := adds.unique (turns.adds.trans added)
    have valid := Config.check_eq_ok_iff.1 timely'.run.orderly_tidy.1.checked
    obtain ⟨later, moved⟩ := turns.nextSweep valid.sweepInterval_pos
    refine ⟨⟨_, rfl, most, least⟩, fun kind failed notInterrupted => ?_, fun signals' either => ?_⟩
    · cases heard.symm.trans (heard_eq_error_iff.2 ⟨failed, notInterrupted⟩)
    · obtain rfl := Except.ok.inj (heard.symm.trans (heard_eq_ok_iff.2 either))
      exact ⟨rfl, later, timely'.soon, moved, _, u, turns⟩

-- A device sends datagrams to two servers, one of which answers much later.
private def answered : Host where
  sockets := [(0, { visitors := [.ok ⟨0x0a000001, 0x8000⟩] }),
    (1, { arrivals := [.data (UdpFlow.devicePacket [1, 2] ++ (UdpFlow.devicePacket [3]).set 23 54)] }),
    (2, { arrivals := [.data [7]] })]
  wakeups := [{ signals := [(0, { readable := true })], elapsed := 5 },
    { signals := [(1, { readable := true })], elapsed := 10 },
    { signals := [(2, { readable := true })], elapsed := 100000 }, { elapsed := 60000 }]

theorem idle_swept_answered : ∃ log s calls t, Chronicle log s ∧ once none s = .ok (.ok (), t) ∧
    s.host.Adds calls t.host ∧ s.self.keys = [[⟨.udp, ⟨0x0a000002, 0xa028⟩, ⟨0x08080808, 53⟩⟩,
      ⟨.udp, ⟨0x0a000002, 0xa028⟩, ⟨0x08080808, 54⟩⟩]] ∧
    t.self.keys = [[⟨.udp, ⟨0x0a000002, 0xa028⟩, ⟨0x08080808, 53⟩⟩]] ∧
    ∃ first u, Turns log [] none s first u t ∧ Sweeps t.host.clock u t := by
  have watched : watches {} answered [none, none, none] (fun s =>
      s.host.wakeups == [{ elapsed := 60000 }] &&
      s.self.keys == [[⟨.udp, ⟨0x0a000002, 0xa028⟩, ⟨0x08080808, 53⟩⟩,
        ⟨.udp, ⟨0x0a000002, 0xa028⟩, ⟨0x08080808, 54⟩⟩]] &&
      (waits [none]).endsAs s fun t => s.self.nextSweep ≤ t.host.clock &&
        t.self.keys == [[⟨.udp, ⟨0x0a000002, 0xa028⟩, ⟨0x08080808, 53⟩⟩]]) = true := by
    decide +kernel
  obtain ⟨log, s, chronicle, holds⟩ := exists_chronicle_of_watches rfl watched
  simp only [Bool.and_eq_true, beq_iff_eq] at holds
  obtain ⟨⟨wakeups, before⟩, ends⟩ := holds
  obtain ⟨t, performed, holds⟩ := exists_of_endsAs ends
  simp only [Bool.and_eq_true, beq_iff_eq, decide_eq_true_iff] at holds
  obtain ⟨due, after⟩ := holds
  obtain ⟨result, performed⟩ := once_of_waits performed
  obtain ⟨calls, adds, -⟩ := chronicle.continues performed
  have quiet : (polled none s).1 = .ok [] := by simp [Host.poll, wakeups]
  obtain ⟨-, -, went⟩ := chronicle.idle_swept performed adds
  obtain ⟨rfl, -, -, -, first, u, turns⟩ := went [] (.inl quiet)
  exact ⟨log, s, calls, t, chronicle, performed, adds, before, after, first, u, turns, turns.due due⟩

end Reactor

end TunnelRelay
