import TunnelRelay.Proofs.Flow.Tcp.Segments

/-!
# The control state of a TCP flow

Who has finished, whether a packet waits and whether the socket was told about the end all follow
from the phase of an open flow, at every moment of a run. Phases follow each other in few ways, and
the end is final.
-/

namespace TunnelRelay

/-- The ways in which one phase follows another. -/
inductive Phase.Next : Phase → Phase → Prop where
  | requested : Next .initial .synSent
  | connected : Next .synSent .synReceived
  | confirmed : Next .synReceived .established
  | deviceFinishedEarly : Next .synReceived .closeWait
  | deviceFinished : Next .established .closeWait
  | remoteFinished : Next .established .finWait1
  | bothFinished : Next .closeWait .lastAck
  | endConfirmed : Next .finWait1 .finWait2
  | endsCrossed : Next .finWait1 .closing
  | ended (phase : Phase) : Next phase .closed

namespace Phase

variable {phase : Phase} {all : Bool}

private theorem next_confirmed :
    phase.confirmed all = phase ∨ phase.Next (phase.confirmed all) := by
  cases phase
  case synReceived => exact .inr .confirmed
  case finWait1 =>
    cases all
    · exact .inl rfl
    · exact .inr .endConfirmed
  all_goals exact .inl rfl

private theorem next_deviceFinished :
    phase.deviceFinished = phase ∨ phase.Next phase.deviceFinished := by
  cases phase
  case synReceived => exact .inr .deviceFinishedEarly
  case established => exact .inr .deviceFinished
  case finWait1 => exact .inr .endsCrossed
  all_goals exact .inl rfl

private theorem next_remoteFinished :
    phase.remoteFinished = phase ∨ phase.Next phase.remoteFinished := by
  cases phase
  case established => exact .inr .remoteFinished
  case closeWait => exact .inr .bothFinished
  all_goals exact .inl rfl

private theorem afterRemote_iff : phase.afterRemote = true ↔
    phase = .finWait1 ∨ phase = .finWait2 ∨ phase = .closing ∨ phase = .lastAck := by
  cases phase <;> simp [afterRemote]

private theorem afterDevice_iff : phase.afterDevice = true ↔
    phase = .closeWait ∨ phase = .lastAck ∨ phase = .closing := by
  cases phase <;> simp [afterDevice]

private theorem sendsPayload_iff :
    phase.sendsPayload = true ↔ phase = .established ∨ phase = .closeWait := by
  cases phase <;> simp [sendsPayload]

private theorem not_afterRemote_of_sendsPayload (h : phase.sendsPayload = true) :
    phase.afterRemote = false := by
  cases phase <;> first | rfl | cases h

end Phase

namespace TcpFlow

/-- What the phase of an open flow says about its flags. A flow to which the device may still send
its end has no end of its own to send at once. -/
structure Controlled (f : TcpFlow) : Prop where
  remoteClosed_iff : f.remoteClosed = true ↔ f.phase = .finWait1 ∨ f.phase = .finWait2 ∨
    f.phase = .closing ∨ f.phase = .lastAck
  deviceClosed_iff : f.deviceClosed = true ↔ f.phase = .closeWait ∨ f.phase = .lastAck ∨
    f.phase = .closing
  pending_sends : f.pending = true → f.phase = .established ∨ f.phase = .closeWait
  pending_unfinished : f.pending = true → f.remoteClosed = false
  writeShut_drained : f.writeShut = true → f.deviceClosed = true ∧ f.ring.toList = []
  unfinished : f.phase = .synReceived ∨ f.phase = .established →
    (f.remoteClosed && !f.pending) = false

def phaseAfter (journal : List Step) : Phase :=
  (journal.getLast?.map fun step => step.after.phase).getD .initial

variable {σ : Type} [Outlet σ] {stimulus : Stimulus} {f g : TcpFlow} {r r' : Registry}
  {out out' : σ} {mark : Mark} {journal steps pre : List Step} {s t : Scene TcpFlow σ}

theorem Consistent.controlled (h : Consistent f) (sound : f.ring.Sound) : Controlled f where
  remoteClosed_iff := by rw [h.remoteClosed_eq, Phase.afterRemote_iff]
  deviceClosed_iff := by rw [h.deviceClosed_eq, Phase.afterDevice_iff]
  pending_sends waits := Phase.sendsPayload_iff.1 (h.pending_sends waits)
  pending_unfinished waits := by
    rw [h.remoteClosed_eq]
    exact Phase.not_afterRemote_of_sendsPayload (h.pending_sends waits)
  writeShut_drained shut := by
    have drained := h.writeShut_drained shut
    exact ⟨drained.1, (StreamRing.isEmpty_iff sound).1 drained.2⟩
  unfinished := by
    rintro (phase | phase) <;> simp [h.remoteClosed_eq, phase, Phase.afterRemote]

theorem Move.next (move : Move stimulus ⟨f, r, out⟩ mark ⟨g, r', out'⟩) :
    g.phase = f.phase ∨ f.phase.Next g.phase := by
  cases move with
  | opened _ phase _ _ =>
    right
    rw [phase]
    exact .requested
  | reopened _ _ _ | unconnected _ _ | retried _ _ _ _ | wrote _ _ _ | blocked _ _ =>
    exact .inl rfl
  | shut _ _ _ _ _ | told _ _ => exact .inl rfl
  | connected phase emits =>
    right
    have entered := emits.same.phase_eq
    change f.phase.Next _
    rw [phase]
    exact entered ▸ .connected
  | acknowledged _ _ _ _ => exact Phase.next_confirmed
  | took _ _ _ _ _ _ emits => exact .inl emits.same.phase_eq
  | ended _ _ _ emits =>
    have same : _ = f.phase := emits.same.phase_eq
    change Phase.deviceFinished _ = _ ∨ Phase.Next _ (Phase.deviceFinished _)
    rw [same]
    exact Phase.next_deviceFinished
  | missed reads _ => exact .inl reads.same.phase_eq
  | delivered reads _ _ _ _ _ => exact .inl reads.same.phase_eq
  | exhausted reads emits =>
    have same : _ = f.phase := emits.same.phase_eq.trans reads.same.phase_eq
    change Phase.remoteFinished _ = _ ∨ Phase.Next _ (Phase.remoteFinished _)
    rw [same]
    exact Phase.next_remoteFinished
  | widened _ _ _ emits => exact .inl emits.same.phase_eq
  | closed _ _ _ => exact .inr (.ended _)

-- What holds of a flow whenever no move is under way.
private structure Orderly (journal : List Step) (f : TcpFlow) : Prop where
  healthy : Healthy f
  consistent : f.phase ≠ .closed → Consistent f
  phase_eq : phaseAfter journal = f.phase

private theorem Fresh.orderly (hf : Fresh f) : Orderly [] f :=
  ⟨hf.healthy, fun _ => hf.consistent, hf.phase_eq.symm⟩

private theorem Move.orderly (h : Orderly journal f)
    (move : Move stimulus ⟨f, r, out⟩ mark ⟨g, r', out'⟩) :
    Orderly (journal ++ [⟨f, mark, g⟩]) g :=
  ⟨move.healthy h.healthy, move.consistent h.consistent, by simp [phaseAfter]⟩

private theorem Orderly.controlled (h : Orderly journal f) (isOpen : f.phase ≠ .closed) :
    Controlled f := (h.consistent isOpen).controlled h.healthy.sound

private theorem Run.orderly (run : Run journal s) : Orderly journal s.self :=
  run.invariant Fresh.orderly Move.orderly

private theorem Run.stays_closed (run : Run journal s) (closed : s.self.phase = .closed)
    {operation : Operation} (performed : operation.perform s = .ok ((), t)) :
    t.self.phase = .closed := by
  obtain ⟨steps, -, run', -⟩ := run.continues operation t performed
  have before : phaseAfter journal = .closed := run.orderly.phase_eq.trans closed
  cases steps with
  | nil =>
    have after := run'.orderly.phase_eq
    rw [List.append_nil, before] at after
    exact after.symm
  | cons first rest =>
    have isPrefix : journal ++ [first] <+: journal ++ first :: rest := ⟨rest, by simp⟩
    obtain ⟨orderly, -, stimulus, r, r', out, out', move⟩ :=
      run'.invariant_step Fresh.orderly Move.orderly isPrefix
    exact absurd (orderly.phase_eq.symm.trans before) move.isOpen

/-- At every moment of a run the flags of an open flow are those of its phase. Each move starts where
the one before it ended and takes the phase one way further at most, and a closed flow stays closed. -/
theorem Run.control_state (run : Run journal s) :
    Continues journal s ∧ phaseAfter journal = s.self.phase ∧
    (s.self.phase ≠ .closed → Controlled s.self) ∧
    (∀ pre step, pre ++ [step] <+: journal →
      phaseAfter pre = step.before.phase ∧ step.before.phase ≠ .closed ∧ Controlled step.before ∧
        (step.after.phase = step.before.phase ∨ step.before.phase.Next step.after.phase)) ∧
    (s.self.phase = .closed → ∀ (operation : Operation) (t : Scene TcpFlow σ),
      operation.perform s = .ok ((), t) → t.self.phase = .closed) := by
  have orderly := run.orderly
  refine ⟨run.continues, orderly.phase_eq, orderly.controlled, ?_, ?_⟩
  · intro pre step isPrefix
    obtain ⟨before, -, stimulus, r, r', out, out', move⟩ :=
      run.invariant_step Fresh.orderly Move.orderly isPrefix
    exact ⟨before.phase_eq, move.isOpen, before.controlled move.isOpen, move.next⟩
  · intro closed operation t performed
    exact run.stays_closed closed performed

/-- The device ends its stream while an answer waits for room. -/
theorem control_state_waiting : ∃ journal, ∃ s : Scene TcpFlow Credit, Run journal s ∧
    phaseAfter journal = .closeWait ∧ s.self.pending = true ∧ s.self.deviceClosed = true ∧
      s.self.remoteClosed = false := by
  obtain ⟨journal, s, run, result⟩ := exists_run_of_enacts
    (p := fun _ t => t.self.pending && t.self.phase == .closeWait)
    (show enacts (devicePacket .syn 0x110 0 []) { streamCapacity := 16 }
      { sockets := [(0, { arrivals := [.data [104, 105], .finished] })] }
      [(⟨none⟩, .ofDevice .syn 0x110 0 []),
        (⟨none⟩, .ready { writable := true }),
        (⟨some 0⟩, .ofDevice .ack 0x111 0x1001 []),
        (⟨none⟩, .ofDevice (.fin ∪ .ack) 0x111 0x1001 [])] _ = true by
      decide +kernel)
  simp only [Bool.and_eq_true, beq_iff_eq] at result
  obtain ⟨pending, phase⟩ := result
  obtain ⟨-, after, controlled, -, -⟩ := run.control_state
  have flags := controlled (by simp [phase])
  refine ⟨journal, s, run, after.trans phase, pending, ?_, flags.pending_unfinished pending⟩
  exact flags.deviceClosed_iff.2 (.inl phase)

end TcpFlow

end TunnelRelay
