import TunnelRelay.Proofs.Flow.Pulling
import TunnelRelay.Proofs.Session.Stalled
import TunnelRelay.Proofs.Session.Trace

/-!
# No flow is pulled in vain

The list of the flows that wait is drained while those that are asked may join it again. Whatever a
session has got into, this ends: a flow that is asked has nothing to offer any more, or its packet is
taken at once, and it joins the others again only for what it has read since.
-/

namespace TunnelRelay

open Act

namespace FlowTable

/-- All flows are fit, whether or not more of them can be opened. -/
def AllFit (t : FlowTable) : Prop := ∀ f ∈ t.flows, f.Fit

theorem keeps_allFit : Keeps AllFit := ⟨id, fun _ fit => fit⟩

variable {s : Scene FlowTable Outbox} {tunnel : SocketId}

theorem ensures_send_allFit {packet : Packet} {bytes : Bytes} (ready : Ready AllFit s)
    (parsed : Packet.ofBytes bytes = .ok packet) :
    Ensures (send packet) s fun _ t => t.self.AllFit := by
  have judged := Packet.judged_of_ofBytes parsed
  have received {i : Nat} {t : Scene FlowTable Outbox} (ready : Ready AllFit t) :
      Ensures (onFlow i (Flow.receive packet)) t fun _ u => u.self.AllFit :=
    (achieves_onFlow keeps_allFit (.refl ready) fun ready =>
      Flow.achieves_receive ready judged).ensures.mono fun _ _ works => works.fit
  simp only [send, ensures_bind, ensures_self, ensures_liftM]
  intro found _
  split
  · simp only [ensures_bind, ensures_note]
    exact ready.fit
  split
  · exact received ready
  rw [ensures_bind]
  intro result t started
  obtain ⟨_, opens⟩ := Flow.ensures_start _ _ started
  cases result with
  | error failure =>
    rw [ensures_note, opens.self_eq]
    exact ready.fit
  | ok f =>
    simp only [ensures_bind, ensures_modifySelf]
    refine received ⟨?_, ?_⟩
    · change ∀ g ∈ t.self.flows ++ [f], g.Fit
      rw [opens.self_eq]
      have fit : f.Fit := Flow.fit_of_start parsed started
      exact List.forall_mem_append.2 ⟨ready.fit, List.forall_mem_singleton.2 fit⟩
    · change t.out.ring.Sound
      exact opens.out_eq ▸ ready.sound

theorem ensures_sweep_allFit {now : Nat} (sound : Sound tunnel s.out.waiting s.self.flows)
    (fit : s.self.AllFit) : Ensures (sweep now) s fun _ t => t.self.AllFit := by
  simp only [sweep, ensures_bind, ensures_self]
  refine (ensures_keepUnexpired s.self.session fun f mem => (sound.live f mem).socket_ne).mono ?_
  rintro kept t ⟨sub, -⟩
  exact (ensures_modifySelf _).2 fun f mem => fit f (sub.mem mem)

end FlowTable

namespace Session

variable {s t u : Scene Session Unit} {deed : Deed} {deeds : List Deed}

theorem Task.ensures_allFit {task : Task} (coherent : Coherent s) (due : task.Due s.self)
    (fit : s.self.table.AllFit) :
    Ensures task.perform ⟨s.self.table, s.registry, (task.takenFrom s.self).outbox, s.host⟩
      fun _ v => v.self.AllFit := by
  have ring := coherent.ring
  rw [← (Task.takes due).ring_eq] at ring
  have ready : Ready FlowTable.AllFit
      ⟨s.self.table, s.registry, (task.takenFrom s.self).outbox, s.host⟩ := ⟨fit, ring⟩
  cases due with
  | send _ parsed => exact FlowTable.ensures_send_allFit ready parsed
  | ready _ key readiness =>
    exact (FlowTable.achieves_onReady FlowTable.keeps_allFit (.refl ready)).ensures.mono
      fun _ _ works => works.fit
  | pull _ waits room =>
    exact (FlowTable.achieves_pull FlowTable.keeps_allFit (.refl ready) room).ensures.mono
      fun _ _ works => works.fit
  | sweep _ now => exact FlowTable.ensures_sweep_allFit coherent.sound fit

theorem Move.allFit (coherent : Coherent s) (fit : s.self.table.AllFit) (move : Move s deed t) :
    t.self.table.AllFit := by
  cases move with
  | read =>
    simp only [received]
    split <;> exact fit
  | wrote =>
    simp only [relieved]
    split <;> exact fit
  | told => exact fit
  | served _ due ran _ => exact Task.ensures_allFit coherent due fit _ _ ran
  | closed isOpen _ ran adds =>
    obtain ⟨_, -, same⟩ := (closes_of_close coherent isOpen ran adds).self_eq
    rw [same]
    exact List.forall_mem_nil _

theorem Path.allFit (coherent : Coherent s) (fit : s.self.table.AllFit) (path : Path s deeds t) :
    t.self.table.AllFit := by
  refine (path.induct (I := fun _ t => Coherent t ∧ t.self.table.AllFit) ?_ ?_ []
    ⟨coherent, fit⟩).2
  · exact fun _ _ _ h called => ⟨h.1.world _ called.adds.nextSocket_le, h.2⟩
  · exact fun _ _ _ _ h move => ⟨move.coherent h.1, move.allFit h.1 h.2⟩

/-- All flows of a session are fit, whatever its configuration. -/
theorem Run.allFit (run : Run s) : s.self.table.AllFit := by
  induction run with
  | start _ _ started =>
    rw [table_of_start started]
    exact List.forall_mem_nil _
  | world _ _ _ ih => exact ih
  | act run performed ih =>
    obtain ⟨coherent, rests⟩ := run.coherent_rests
    obtain ⟨⟨_, path⟩, -⟩ := Operation.settles coherent rests _ _ performed
    exact path.allFit coherent ih

/-- What holds of a session whenever it drains its outbox. -/
structure Pullable (s : Scene Session Unit) : Prop where
  sound : FlowTable.Sound s.self.socket s.self.outbox.waiting s.self.table.flows
  nodup : s.self.outbox.waiting.Nodup
  ring : s.self.outbox.ring.Sound
  fit : s.self.table.AllFit

namespace Pullable

theorem of_coherent (coherent : Coherent s) (fit : s.self.table.AllFit) : Pullable s :=
  ⟨coherent.sound, coherent.nodup, coherent.ring, fit⟩

theorem ready (h : Pullable s) : Ready FlowTable.AllFit (serving s) := ⟨h.fit, h.ring⟩

theorem flush (h : Pullable s) (flushes : Flushes s t) : Pullable t := by
  obtain ⟨ring, same⟩ := flushes.self_eq
  refine ⟨?_, ?_, flushes.sound, ?_⟩ <;> rw [same]
  · exact h.sound
  · exact h.nodup
  · exact h.fit

end Pullable

variable {key : FlowKey} {rest popped : List FlowKey}

/-- The flow that has waited longest is asked to go on, and the tunnel takes what it takes then. -/
structure Asks (s : Scene Session Unit) (key : FlowKey) (rest : List FlowKey)
    (v : Scene FlowTable Outbox) (t : Scene Session Unit) : Prop where
  pulled : FlowTable.pull key (serving (asking s key rest)) = .ok ((), v)
  pulls : FlowTable.Pulls key (serving (asking s key rest)) v
  waiting_eq : t.self.outbox.waiting = v.out.waiting
  adds : ∃ calls, v.host.Adds calls t.host

theorem achieves_pullRound (pullable : Pullable s) (waiting : s.self.outbox.waiting = key :: rest)
    (room : maxPacketLength ≤ s.self.outbox.ring.remaining) :
    Achieves (pullRound ()) s fun _ t => Pullable t ∧ ∃ v, Asks s key rest v t := by
  have nodup := pullable.nodup
  have sound := pullable.sound
  rw [waiting] at nodup sound
  have ready : Ready FlowTable.AllFit (serving (asking s key rest)) := ⟨pullable.fit, pullable.ring⟩
  have pulls : Achieves (FlowTable.pull key) _ _ :=
    FlowTable.achieves_pull FlowTable.keeps_allFit (.refl ready) room
  obtain ⟨_, v, pulled, works⟩ := pulls
  obtain ⟨_, served⟩ := FlowTable.ensures_pull sound _ _ pulled
  have outcome := FlowTable.pulls_pull sound (List.nodup_cons.1 nodup).1 room _ _ pulled
  simp only [pullRound, achieves_bind, achieves_self, if_neg (Nat.not_lt.2 room), waiting,
    achieves_modifySelf, achieves_say]
  change Achieves (withTable (FlowTable.pull key)) (asking s key rest) _
  refine achieves_withTable.2 ⟨_, v, pulled, ?_⟩
  have between : Pullable ⟨{ (asking s key rest).self with table := v.self, outbox := v.out },
      v.registry, (), v.host⟩ :=
    ⟨served.sound, served.grows.nodup (List.nodup_cons.1 nodup).2, works.sound, works.fit⟩
  refine (flushes_flush works.sound).mono ?_
  rintro (failure | _) t flushed
  all_goals
    refine (achieves_pure _).2 ⟨between.flush flushed, v, pulled, outcome, ?_, flushed.adds⟩
    exact flushed.waiting_eq

/-- The scenes in which a flow is asked, or none is left to ask, and the keys asked so far. -/
inductive Draining (s : Scene Session Unit) : List FlowKey → Scene Session Unit → Prop where
  | flushed {t : Scene Session Unit} (flushed : flush s = .ok (.ok (), t)) : Draining s [] t
  | asked {t u : Scene Session Unit} {popped rest : List FlowKey} {key : FlowKey}
      (earlier : Draining s popped t) (waiting : t.self.outbox.waiting = key :: rest)
      (room : maxPacketLength ≤ t.self.outbox.ring.remaining)
      (round : pullRound () t = .ok (.again (), u)) : Draining s (popped ++ [key]) u

namespace Draining

theorem pullable (h : Pullable s) (draining : Draining s popped t) : Pullable t := by
  induction draining with
  | flushed flushed => exact h.flush ((flushes_flush h.ring).ensures _ _ flushed)
  | asked _ waiting room round ih =>
    exact ((achieves_pullRound ih waiting room).ensures _ _ round).1

/-- The flows that were asked, and those that wait now, are those that waited first, and those that have
read something new since. -/
theorem queue (h : Pullable s) (draining : Draining s popped t) : ∃ calls again,
    s.host.Adds calls t.host ∧ s.self.outbox.waiting ++ again = popped ++ t.self.outbox.waiting ∧
      again.length ≤ (calls.filterMap Event.readFrom?).length := by
  induction draining with
  | flushed flushed =>
    have flushes := (flushes_flush h.ring).ensures _ _ flushed
    obtain ⟨calls, adds⟩ := flushes.adds
    refine ⟨calls, [], adds, ?_, Nat.zero_le _⟩
    rw [List.append_nil, List.nil_append, flushes.waiting_eq]
  | @asked t u popped rest key earlier waiting room round ih =>
    obtain ⟨calls, again, adds, queue, few⟩ := ih
    obtain ⟨-, v, -, pulls, waiting_eq, flushed, adds''⟩ :=
      (achieves_pullRound (earlier.pullable h) waiting room).ensures _ _ round
    rw [waiting] at queue
    -- Only the key that was asked can have joined, behind all others, after a read of its socket.
    obtain ⟨more, adds', joined⟩ : ∃ more, t.host.Adds more v.host ∧
        (u.self.outbox.waiting = rest ∨
          u.self.outbox.waiting = rest ++ [key] ∧ ∃ e ∈ more, e.readFrom?.isSome = true) := by
      rw [waiting_eq]
      cases pulls with
      | stale _ => exact ⟨[], Host.Adds.note (.refl _) _, .inl rfl⟩
      | taken _ _ _ _ adds joined =>
        refine ⟨_, (Host.Adds.note (.refl _) _).trans adds, joined.imp_right ?_⟩
        rintro ⟨joined, e, mem, found⟩
        exact ⟨joined, e, List.mem_cons_of_mem _ mem, by rw [found]; rfl⟩
    have all := (adds.trans adds').trans adds''
    rcases joined with same | ⟨joined, e, mem, found⟩
    · refine ⟨_, again, all, ?_, ?_⟩
      · rw [queue, same, List.append_assoc, List.singleton_append]
      · rw [List.append_assoc, List.filterMap_append, List.length_append]
        omega
    · refine ⟨_, again ++ [key], all, ?_, ?_⟩
      · rw [← List.append_assoc, queue, joined]
        simp
      · have some : 0 < (more.filterMap Event.readFrom?).length := by
          obtain ⟨socket, found⟩ := Option.isSome_iff_exists.1 found
          exact List.length_pos_of_mem (List.mem_filterMap.2 ⟨e, mem, found⟩)
        simp only [List.filterMap_append, List.length_append, List.length_singleton]
        omega

end Draining

theorem ensures_pullRound_again : Ensures (pullRound ()) s fun result _ => result = .again () →
    ∃ key rest, s.self.outbox.waiting = key :: rest ∧
      maxPacketLength ≤ s.self.outbox.ring.remaining := by
  simp only [pullRound, ensures_bind, ensures_self]
  split
  · rw [ensures_pure]
    rintro ⟨⟩
  next room =>
  split
  · rw [ensures_pure]
    rintro ⟨⟩
  · next key rest waiting => exact fun _ _ _ _ => ⟨key, rest, waiting, Nat.le_of_not_lt room⟩

/-- Flushing and pulling is nothing but a first flush and the rounds behind it. -/
theorem ensures_flushAndPull_drains : Ensures flushAndPull s fun result t =>
    (∃ failure, result = .error failure ∧ flush s = .ok (result, t)) ∨
      ∃ popped u, Draining s popped u ∧ pullRound () u = .ok (.done result, t) := by
  simp only [flushAndPull, ensures_bind]
  rintro (failure | _) t flushed
  · exact (ensures_pure _).2 (.inl ⟨failure, rfl, flushed⟩)
  simp only [ensures_bind, ensures_get]
  refine ensures_iterate (I := fun _ u => ∃ popped, Draining s popped u) ?_ ⟨_, .flushed flushed⟩
  rintro _ u ⟨popped, draining⟩ outcome v round
  cases outcome with
  | again _ =>
    obtain ⟨key, rest, waiting, room⟩ := ensures_pullRound_again _ _ round rfl
    exact ⟨_, draining.asked waiting room round⟩
  | done result => exact .inr ⟨popped, u, draining, round⟩

/-- Flushing and pulling comes to an end in every state that a session gets into, and asks no flow in
vain. Every key that is taken from those that wait is stale, with no effect at all, or the packet that
its flow holds back is taken in that very pull, and its flow waits again at most for what it has read
from its socket since. All in all, no more keys are asked than have waited at first, and again for
something that was read. -/
theorem pulling_never_in_vain :
    (∀ {s t : Scene Session Unit} {deeds : List Deed}, Run s → Path s deeds t → Pullable t) ∧
    ∀ {s : Scene Session Unit}, Pullable s →
      (∃ result t, flushAndPull s = .ok (result, t) ∧
        ((∃ failure, result = .error failure ∧ flush s = .ok (result, t)) ∨
          ∃ popped u, Draining s popped u ∧ pullRound () u = .ok (.done result, t))) ∧
      ∀ {popped : List FlowKey} {t : Scene Session Unit}, Draining s popped t →
        (∃ calls again, s.host.Adds calls t.host ∧
          s.self.outbox.waiting ++ again = popped ++ t.self.outbox.waiting ∧
          again.length ≤ (calls.filterMap Event.readFrom?).length) ∧
        ∀ {key : FlowKey} {rest : List FlowKey}, t.self.outbox.waiting = key :: rest →
          maxPacketLength ≤ t.self.outbox.ring.remaining →
          ∃ result u v, pullRound () t = .ok (result, u) ∧ Asks t key rest v u := by
  refine ⟨fun run path => ?_, fun {s} pullable => ⟨?_, fun {popped t} draining => ⟨?_, ?_⟩⟩⟩
  · obtain ⟨coherent, -⟩ := run.coherent_rests
    exact .of_coherent (path.leads coherent).coherent (path.allFit coherent run.allFit)
  · have ends : Achieves flushAndPull s _ :=
      empties_flushAndPull FlowTable.keeps_allFit pullable.ready
    obtain ⟨result, t, ended, -⟩ := ends
    exact ⟨result, t, ended, ensures_flushAndPull_drains _ _ ended⟩
  · exact draining.queue pullable
  · intro key rest waiting room
    obtain ⟨result, u, round, -, v, asks⟩ :=
      achieves_pullRound (draining.pullable pullable) waiting room
    exact ⟨result, u, v, round, asks⟩

/-- A flow has come to wait while the tunnel took nothing. As soon as the tunnel takes what it is given,
the flow is asked and gets rid of its packet. -/
theorem pulling_never_in_vain_unblocked : ∃ (s t : Scene Session Unit) (f : UdpFlow), Run s ∧
    s.self.table.flows = [.udp f] ∧ f.pending = true ∧ s.self.outbox.waiting = [f.key] ∧
    (∃ result u, flushAndPull s = .ok (result, u)) ∧ Draining s [] t ∧
    ∃ result u packet more, pullRound () t = .ok (result, u) ∧ f.reply.latestData = .ok packet ∧
      t.host.Adds (.offer packet.bytes true :: more) u.host := by
  obtain ⟨pullable, pulls⟩ := pulling_never_in_vain
  obtain ⟨s, f, run, -, alone, pending, waiting⟩ := exists_run_held
  obtain ⟨host, opened⟩ : ∃ host, host = s.host.setSocket s.self.socket {} := ⟨_, rfl⟩
  have run' : Run { s with host } := run.world s.registry (opened ▸ ⟨rfl, Nat.le_refl _⟩)
  obtain ⟨coherent, -⟩ := run'.coherent_rests
  have free : (host.socket s.self.socket).Steady false := by
    rw [opened, Host.socket_setSocket, if_pos rfl]
    exact ⟨rfl, rfl⟩
  obtain ⟨_, t, flushed, rfl, room⟩ :=
    achieves_flush_free (s := { s with host }) coherent.ring free
  have flushes := (flushes_flush coherent.ring).ensures _ _ flushed
  obtain ⟨⟨result, u, ends, -⟩, asks⟩ := pulls (pullable run' (.quiet (.refl _)))
  obtain ⟨-, asks⟩ := asks (.flushed flushed)
  obtain ⟨result', v, w, round, asks⟩ :=
    asks (flushes.waiting_eq.trans waiting) (room ▸ coherent.capacity)
  obtain ⟨calls, adds⟩ := asks.adds
  have alone' : t.self.table.flows = [.udp f] :=
    (congrArg FlowTable.flows flushes.table_eq).trans alone
  refine ⟨{ s with host }, t, f, run', alone, pending, waiting, ⟨result, u, ends⟩,
    .flushed flushed, ?_⟩
  cases asks.pulls with
  | stale nothing =>
    have waits := nothing (.udp f) (alone' ▸ List.mem_singleton_self _) rfl
    exact absurd (pending.symm.trans waits) Bool.false_ne_true.symm
  | taken mem _ _ latest offers _ =>
    obtain rfl := List.mem_singleton.1 (alone' ▸ mem)
    exact ⟨result', v, _, _, round, latest, ((Host.Adds.note (.refl _) _).trans offers).trans adds⟩

end Session

end TunnelRelay
