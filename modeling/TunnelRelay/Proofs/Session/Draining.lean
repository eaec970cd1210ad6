import TunnelRelay.Proofs.Flow.Faultless
import TunnelRelay.Proofs.Session.Run

/-!
# Draining the outbox

A session writes what its tunnel takes, and asks the flows that wait to go on while there is room for
any packet. Both come to an end: a write that takes something or is interrupted uses something up, and
a flow that is asked gives up its place, which pays for all that it reads and writes then.
-/

namespace TunnelRelay

open Act

namespace Session

/-- The session as its flows see it. -/
def serving (s : Scene Session Unit) : Scene FlowTable Outbox :=
  ⟨s.self.table, s.registry, s.self.outbox, s.host⟩

variable {s t u : Scene Session Unit}

@[simp]
theorem achieves_say {Q : Unit → Scene Session Unit → Prop} (notice : SessionNotice) :
    Achieves (say notice) s Q ↔
      Q () { s with host := s.host.record (.notice (.session s.self.id notice)) } := by
  simp [say]

theorem achieves_withTable {β : Type} {act : Act FlowTable Outbox β}
    {Q : β → Scene Session Unit → Prop} : Achieves (withTable act) s Q ↔
      Achieves act (serving s) fun b t =>
        Q b ⟨{ s.self with table := t.self, outbox := t.out }, t.registry, (), t.host⟩ := by
  constructor
  · rintro ⟨b, u, hu, hQ⟩
    simp only [withTable, checked_bind_eq_ok] at hu
    obtain ⟨⟨b, t⟩, ht, same⟩ := hu
    cases same
    exact ⟨b, t, ht, hQ⟩
  · rintro ⟨b, t, ht, hQ⟩
    refine ⟨b, _, ?_, hQ⟩
    unfold serving at ht
    simp only [withTable, ht, ok_bind]
    rfl

/-- Nothing has changed but the ring of the outbox and what the host has to say. -/
structure Flushes (s t : Scene Session Unit) : Prop where
  self_eq : ∃ ring, t.self = { s.self with outbox := { s.self.outbox with ring } }
  registry_eq : t.registry = s.registry
  sound : t.self.outbox.ring.Sound
  spends : s.host.Spends t.host
  adds : ∃ calls, s.host.Adds calls t.host

namespace Flushes

theorem refl (sound : s.self.outbox.ring.Sound) : Flushes s s :=
  ⟨⟨_, rfl⟩, rfl, sound, .refl _, [], .refl _⟩

theorem write {ring : StreamRing} (h : Flushes s t) (sound : ring.Sound) (offered : Bytes) :
    Flushes s { t with
      self := { t.self with outbox := { t.self.outbox with ring } }
      host := (t.host.write t.self.socket offered).2 } := by
  obtain ⟨_, same⟩ := h.self_eq
  obtain ⟨calls, adds⟩ := h.adds
  have written := ((Host.After.refl t.host).write t.self.socket offered).adds
  exact ⟨⟨ring, by rw [same]⟩, h.registry_eq, sound, h.spends.trans (Host.spends_write _ _ _), _,
    adds.trans written⟩

theorem table_eq (h : Flushes s t) : t.self.table = s.self.table := by
  obtain ⟨_, same⟩ := h.self_eq
  rw [same]

theorem waiting_eq (h : Flushes s t) : t.self.outbox.waiting = s.self.outbox.waiting := by
  obtain ⟨_, same⟩ := h.self_eq
  rw [same]

theorem socket_eq (h : Flushes s t) : t.self.socket = s.self.socket := by
  obtain ⟨_, same⟩ := h.self_eq
  rw [same]

theorem framing_eq (h : Flushes s t) : t.self.framing = s.self.framing := by
  obtain ⟨_, same⟩ := h.self_eq
  rw [same]

end Flushes

-- What is left to write, and how often the tunnel will say how much it takes.
private def unflushed (s : Scene Session Unit) : Nat :=
  s.self.outbox.ring.length + (s.host.socket s.self.socket).transfers.length

private theorem flushes_flushRound (flushes : Flushes s t) :
    Achieves (flushRound ()) t (Progress (fun _ => Flushes s) (fun _ => unflushed)
      (fun _ => Flushes s) (unflushed t)) := by
  have sound := flushes.sound
  simp only [flushRound, achieves_bind, achieves_self]
  split
  · exact (achieves_pure _).2 flushes
  next nonempty =>
  obtain ⟨front, front_eq⟩ := sound.front_isOk
  have called : Flushes s { t with host := (Host.write t.self.socket front t.host).2 } :=
    flushes.write sound front
  simp only [achieves_bind, achieves_liftM, achieves_call]
  refine ⟨front, front_eq, ?_⟩
  split
  · exact (achieves_pure _).2 called
  · next taken nonempty' hr =>
    have less := StreamRing.length_drop_written sound (by simpa using nonempty) front_eq hr nonempty'
    have spends := Host.spends_write t.host t.self.socket front
    have transfers := (spends.socket t.self.socket).transfers_le
    simp only [achieves_bind, achieves_modifySelf, achieves_pure, progress_again]
    exact ⟨flushes.write sound.drop front, Nat.add_lt_add_of_lt_of_le less transfers⟩
  · exact (achieves_pure _).2 called
  · next hr =>
    refine (achieves_pure _).2 ⟨called, ?_⟩
    exact Nat.add_lt_add_left (Host.transfers_write_lt hr (by decide)) _
  · exact (achieves_pure _).2 called

theorem flushes_flush (sound : s.self.outbox.ring.Sound) :
    Achieves flush s fun _ t => Flushes s t := by
  simp only [flush, achieves_bind, achieves_get]
  exact achieves_iterate (fun _ _ => flushes_flushRound) (.refl sound) (Nat.lt_succ_self _)

/-- The flows have acted within the budget, and the tunnel was not read. -/
structure Empties (P : FlowTable → Prop) (s t : Scene Session Unit) : Prop where
  works : Works P (serving s) (serving t)
  socket_eq : t.self.socket = s.self.socket
  framing_eq : t.self.framing = s.self.framing

variable {P : FlowTable → Prop}

theorem Empties.trans (h : Empties P s t) (h' : Empties P t u) : Empties P s u :=
  ⟨h.works.trans h'.works, h'.socket_eq.trans h.socket_eq, h'.framing_eq.trans h.framing_eq⟩

theorem Flushes.empties (h : Flushes s t) (fit : P s.self.table) : Empties P s t := by
  refine ⟨⟨⟨?_, h.sound⟩, h.spends, ?_⟩, h.socket_eq, h.framing_eq⟩
  · exact (congrArg P h.table_eq).mpr fit
  · simp only [Scene.budget, serving, h.waiting_eq]
    exact Nat.add_le_add_left h.spends.unread_le _

/-- The scene in which a flow is asked to go on, with the others that wait. -/
def asking (s : Scene Session Unit) (key : FlowKey) (rest : List FlowKey) : Scene Session Unit :=
  { s with
    self := { s.self with outbox := { s.self.outbox with waiting := rest } }
    host := s.host.record (.notice (.session s.self.id (.pulling key))) }

variable {key : FlowKey} {rest : List FlowKey}

/-- The flow that is asked gives up its place, which pays for all that it reads and writes now. -/
theorem budget_asking (waiting : s.self.outbox.waiting = key :: rest) :
    (serving (asking s key rest)).budget < (serving s).budget := by
  simp only [serving, asking, Scene.budget, waiting, List.length_cons, Host.unread, Host.record]
  omega

theorem Empties.asking (h : Empties P s t) (waiting : t.self.outbox.waiting = key :: rest) :
    Empties P s (asking t key rest) where
  works := ⟨⟨h.works.fit, h.works.sound⟩, h.works.spends.trans (Host.spends_record _ _),
    Nat.le_trans (Nat.le_of_lt (budget_asking waiting)) h.works.budget_le⟩
  socket_eq := h.socket_eq
  framing_eq := h.framing_eq

theorem empties_pull (keeps : FlowTable.Keeps P) (ready : Ready P (serving s))
    (room : maxPacketLength ≤ s.self.outbox.ring.remaining) :
    Achieves (withTable (FlowTable.pull key)) s fun _ t => Empties P s t :=
  achieves_withTable.2 ((FlowTable.achieves_pull keeps (.refl ready) room).mono
    fun _ _ works => ⟨works, rfl, rfl⟩)

theorem empties_pullRound (keeps : FlowTable.Keeps P) (empties : Empties P s t) :
    Achieves (pullRound ()) t (Progress (fun _ => Empties P s) (fun _ u => (serving u).budget)
      (fun _ => Empties P s) (serving t).budget) := by
  simp only [pullRound, achieves_bind, achieves_self]
  split
  · exact (achieves_pure _).2 empties
  next room =>
  split
  · exact (achieves_pure _).2 empties
  next key rest waiting =>
  have asked := empties.asking waiting
  simp only [achieves_bind, achieves_modifySelf, achieves_say]
  change Achieves (withTable (FlowTable.pull key)) (Session.asking t key rest) _
  refine (empties_pull keeps asked.works.toReady (Nat.le_of_not_lt room)).mono ?_
  intro _ u pulled
  refine (flushes_flush pulled.works.sound).mono ?_
  rintro (failure | _) v flushed
  · exact (achieves_pure _).2 (asked.trans (pulled.trans (flushed.empties pulled.works.fit)))
  · have drained := pulled.trans (flushed.empties pulled.works.fit)
    refine (achieves_pure _).2 ⟨asked.trans drained, ?_⟩
    exact Nat.lt_of_le_of_lt drained.works.budget_le (budget_asking waiting)

/-- Flushing and pulling come to an end. -/
theorem empties_flushAndPull (keeps : FlowTable.Keeps P) (ready : Ready P (serving s)) :
    Achieves flushAndPull s fun _ t => Empties P s t := by
  simp only [flushAndPull, achieves_bind]
  refine (flushes_flush ready.sound).mono ?_
  rintro (failure | _) t flushed
  · exact (achieves_pure _).2 (flushed.empties ready.fit)
  · simp only [achieves_bind, achieves_get]
    exact achieves_iterate (fun _ _ => empties_pullRound keeps) (flushed.empties ready.fit)
      (Nat.lt_succ_self _)

end Session

end TunnelRelay
