import TunnelRelay.Proofs.Reactor.Steps
import TunnelRelay.Proofs.Session.Faultless

/-!
# A reactor goes on

Whatever its sessions have got into, a reactor hands them their signals and sweeps their flows, and
comes to an end of it. All that it can run out of are the numbers for new sessions. Then it stops,
before the number of an open session could be given again.
-/

namespace TunnelRelay

open Act

namespace Reactor

variable {s t : Scene Reactor Unit} {id : Nat}

/-- More tunnels wait for the listener than there are numbers left for sessions. -/
def Crowded (s : Scene Reactor Unit) : Prop :=
  0x100000000 ≤ s.self.nextSession.toNat + (s.host.socket s.self.listener).visitors.length

private theorem achieves_onSession (operation : Session.Operation) (orderly : Orderly s)
    (affordable : s.self.config.Affordable) : Achieves (onSession id operation.perform) s fun _ t =>
      Orderly t ∧ t.self.config = s.self.config := by
  have performs : Achieves (onSession id operation.perform) s fun _ t =>
      t.self.config = s.self.config := by
    simp only [onSession, achieves_bind, achieves_self]
    split
    · exact (achieves_pure _).2 rfl
    next session found =>
    have run := orderly.runs _ (mem_of_lookup found)
    have fit := run.fit (orderly.configured _ (mem_of_lookup found) ▸ affordable)
    simp only [achieves_bind, achieves_runOn, achieves_modifySelf]
    exact (Session.achieves_perform (.refl fit) run.drained).mono fun _ _ _ => rfl
  refine (performs.and (ensures_onSession operation orderly)).mono ?_
  rintro _ _ ⟨config, orderly', -⟩
  exact ⟨orderly', config⟩

private theorem achieves_removeIfClosed :
    Achieves (removeIfClosed id) s fun _ _ => True := by
  simp only [removeIfClosed, achieves_bind, achieves_self]
  split
  · exact (achieves_pure _).2 trivial
  · split <;> simp

private theorem achieves_sweepSessions {now : Nat} {ids : List Nat} (orderly : Orderly s)
    (affordable : s.self.config.Affordable) :
    Achieves (sweepSessions now ids) s fun _ _ => True := by
  induction ids generalizing s with
  | nil => exact (achieves_pure _).2 trivial
  | cons id ids ih =>
    rw [sweepSessions, achieves_bind]
    refine (achieves_onSession (.sweep now) orderly affordable).mono ?_
    rintro _ _ ⟨orderly', config⟩
    exact ih orderly' (config ▸ affordable)

theorem achieves_sweepIfDue (orderly : Orderly s) (affordable : s.self.config.Affordable) :
    Achieves sweepIfDue s fun _ _ => True := by
  simp only [sweepIfDue, achieves_bind, achieves_now, achieves_self]
  split
  · simp only [achieves_bind, achieves_note, achieves_modifySelf]
    exact achieves_sweepSessions (orderly.note _).1 affordable
  · exact (achieves_pure _).2 trivial

private def visitors (s : Scene Reactor Unit) : Nat :=
  (s.host.socket s.self.listener).visitors.length

-- Whether they are let in or turned away, visitors take no more than a number each.
private structure Admitting (s t : Scene Reactor Unit) : Prop where
  config_eq : t.self.config = s.self.config
  taken : t.self.nextSession.toNat + visitors t ≤ s.self.nextSession.toNat + visitors s

private theorem achieves_acceptRound (affordable : s.self.config.Affordable)
    (left : ∀ visitor, (s.host.accept s.self.listener).1 = .ok visitor →
      s.self.nextSession.toNat + 1 < 0x100000000) :
    Achieves (acceptRound ()) s (Progress (fun _ => Admitting s) (fun _ => visitors)
      (fun _ _ => True) (visitors s)) := by
  have used := s.host.visitors_accept s.self.listener
  simp only [acceptRound, achieves_bind, achieves_self, achieves_call]
  split
  · next socket peer accepted =>
    rw [accepted] at used left
    generalize (s.host.accept s.self.listener).2 = host at *
    replace used := used (by simp)
    obtain ⟨next, numbered⟩ : ∃ next, succ32 s.self.nextSession = .ok next := ⟨_, if_pos (left _ rfl)⟩
    have starts {host' : Host} (spends : host.Spends host') :
        Achieves (Session.start s.self.nextSession.toNat socket s.self.config)
          ⟨{ s.self with nextSession := next }, s.registry, (), host'⟩ fun _ t =>
            Admitting s t ∧ visitors t < visitors s := by
      refine (Session.achieves_start affordable).mono ?_
      rintro _ _ ⟨⟨registry, host'', rfl, spends'⟩, -⟩
      have fewer := ((spends.trans spends').socket s.self.listener).visitors_le
      have later := succ32_eq numbered
      refine ⟨⟨rfl, ?_⟩, ?_⟩ <;> simp only [visitors] <;> omega
    simp only [achieves_bind, achieves_call]
    have set := Host.spends_setNoDelay host socket
    split
    all_goals
      simp only [achieves_bind, achieves_liftM, achieves_note, achieves_setSelf]
      refine ⟨next, numbered, (starts (by
        first
        | exact (set.trans (Host.spends_record _ _)).trans (Host.spends_record _ _)
        | exact set.trans (Host.spends_record _ _))).mono ?_⟩
      rintro (failure | session) t ⟨admitting, fewer⟩
      · simp only [achieves_bind, achieves_note, achieves_pure]
        exact ⟨⟨admitting.config_eq, admitting.taken⟩, fewer⟩
      · simp only [achieves_bind, achieves_modifySelf, achieves_pure]
        exact ⟨⟨admitting.config_eq, admitting.taken⟩, fewer⟩
  · exact (achieves_pure _).2 trivial
  · next accepted =>
    rw [accepted] at used
    replace used := used (by simp)
    refine (achieves_pure _).2 ⟨⟨rfl, ?_⟩, ?_⟩ <;> simp only [visitors] <;> omega
  · simp

-- The number after the last is asked for before anything is done with the visitor.
private theorem acceptRound_of_last {visitor : SocketId × Endpoint}
    (accepted : (s.host.accept s.self.listener).1 = .ok visitor)
    (last : 0x100000000 ≤ s.self.nextSession.toNat + 1) :
    acceptRound () s = .error .overflow := by
  have none_left : succ32 s.self.nextSession = .error .overflow := if_neg (Nat.not_lt.2 last)
  simp only [acceptRound, bind_apply, self_apply, call_apply, ok_bind, accepted]
  cases ((s.host.accept s.self.listener).2.setNoDelay visitor.1).1 with
  | none | some =>
    simp only [bind_apply, note_apply, liftM_apply, none_left, ok_bind]
    rfl

private theorem iterate_acceptRound {bound : Nat} (affordable : s.self.config.Affordable)
    (enough : visitors s < bound) :
    (∃ t, iterate bound acceptRound () s = .ok ((), t)) ∨
      iterate bound acceptRound () s = .error .overflow ∧ Crowded s := by
  induction bound generalizing s with
  | zero => exact absurd enough (Nat.not_lt_zero _)
  | succ bound ih =>
    by_cases left : ∀ visitor, (s.host.accept s.self.listener).1 = .ok visitor →
        s.self.nextSession.toNat + 1 < 0x100000000
    · obtain ⟨round, t, ran, progress⟩ := achieves_acceptRound affordable left
      rw [iterate, bind_apply, ran, ok_bind]
      cases round with
      | done => exact .inl ⟨t, rfl⟩
      | again =>
        obtain ⟨admitting, fewer⟩ := progress_again.1 progress
        have left' : visitors t < bound :=
          Nat.lt_of_lt_of_le fewer (Nat.le_of_lt_succ enough)
        refine (ih (admitting.config_eq ▸ affordable) left').imp_right ?_
        rintro ⟨stopped, crowded⟩
        exact ⟨stopped, Nat.le_trans crowded admitting.taken⟩
    · simp only [not_forall, Nat.not_lt] at left
      obtain ⟨visitor, accepted, last⟩ := left
      have used := s.host.visitors_accept s.self.listener (by simp [accepted])
      refine .inr ⟨?_, ?_⟩
      · rw [iterate, bind_apply, acceptRound_of_last accepted last]
        rfl
      · unfold Crowded
        omega

/-- A dispatch comes to an end, unless it takes in more tunnels than there are numbers left. -/
theorem dispatch_ends (token : Nat) (readiness : Readiness) (orderly : Orderly s)
    (affordable : s.self.config.Affordable) : (∃ t, dispatch token readiness s = .ok ((), t)) ∨
      dispatch token readiness s = .error .overflow ∧ Crowded s := by
  have acts {id : Nat} (operation : Session.Operation) : Achieves
      (do onSession id operation.perform; removeIfClosed id) s fun _ _ => True := by
    rw [achieves_bind]
    refine (achieves_onSession operation orderly affordable).mono ?_
    exact fun _ _ _ => achieves_removeIfClosed
  simp only [dispatch, bind_apply, get_apply, ok_bind]
  cases s.registry.get? token with
  | none => exact .inl ⟨_, rfl⟩
  | some handler =>
    cases handler with
    | listener => exact iterate_acceptRound affordable (Nat.lt_succ_self _)
    | session => exact .inl (acts (.ready readiness)).ends
    | flow _ key => exact .inl (acts (.flowReady key readiness)).ends

end Reactor

end TunnelRelay
