import TunnelRelay.Proofs.Flow.Tcp.Emission

/-!
# Phase and flags of a TCP flow

The flags of an open TCP flow follow from its phase: who has finished, whether a packet may wait, and
whether the socket may have been told that there is no more to write.
-/

namespace TunnelRelay

namespace Phase

/-- Whether the remote end has finished in this phase. -/
def afterRemote : Phase → Bool
  | finWait1 | finWait2 | closing | lastAck => true
  | _ => false

/-- Whether the device has finished in this phase. -/
def afterDevice : Phase → Bool
  | closeWait | lastAck | closing => true
  | _ => false

variable {phase : Phase} {all : Bool}

@[simp]
theorem isConnecting_confirmed : (phase.confirmed all).isConnecting = phase.isConnecting := by
  cases phase <;> cases all <;> rfl

theorem isConnecting_deviceFinished (h : phase.isConnecting = false) :
    phase.deviceFinished.isConnecting = false := by
  cases phase <;> first | rfl | cases h

theorem isConnecting_remoteFinished (h : phase.isConnecting = false) :
    phase.remoteFinished.isConnecting = false := by
  cases phase <;> first | rfl | cases h

theorem takesPayload_confirmed (h : phase.takesPayload = true) :
    (phase.confirmed all).takesPayload = true := by
  cases phase <;> cases all <;> first | rfl | cases h

theorem takesPayload_remoteFinished (h : phase.takesPayload = true) :
    phase.remoteFinished.takesPayload = true := by
  cases phase <;> first | rfl | cases h

@[simp]
theorem confirmed_eq_closed : phase.confirmed all = .closed ↔ phase = .closed := by
  cases phase <;> cases all <;> simp [confirmed]

@[simp]
theorem deviceFinished_eq_closed : phase.deviceFinished = .closed ↔ phase = .closed := by
  cases phase <;> simp [deviceFinished]

@[simp]
theorem remoteFinished_eq_closed : phase.remoteFinished = .closed ↔ phase = .closed := by
  cases phase <;> simp [remoteFinished]

theorem confirmed_ne_synReceived : phase.confirmed all ≠ .synReceived := by
  cases phase <;> cases all <;> simp [confirmed]

@[simp]
theorem deviceFinished_ne_synReceived : phase.deviceFinished ≠ .synReceived := by
  cases phase <;> simp [deviceFinished]

theorem remoteFinished_eq_synReceived (h : phase.remoteFinished = .synReceived) :
    phase = .synReceived := by
  cases phase <;> first | rfl | cases h

@[simp]
theorem afterRemote_confirmed : (phase.confirmed all).afterRemote = phase.afterRemote := by
  cases phase <;> cases all <;> rfl

@[simp]
theorem afterDevice_confirmed : (phase.confirmed all).afterDevice = phase.afterDevice := by
  cases phase <;> cases all <;> rfl

theorem sendsPayload_confirmed (h : phase.sendsPayload = true) :
    (phase.confirmed all).sendsPayload = true := by
  cases phase <;> cases all <;> first | rfl | cases h

@[simp]
theorem afterRemote_deviceFinished : phase.deviceFinished.afterRemote = phase.afterRemote := by
  cases phase <;> rfl

theorem afterDevice_deviceFinished (connected : phase.isConnecting = false)
    (isOpen : phase ≠ .closed) (waits : phase ≠ .finWait2) :
    phase.deviceFinished.afterDevice = true := by
  cases phase <;> simp_all [isConnecting, deviceFinished, afterDevice]

theorem sendsPayload_deviceFinished (h : phase.sendsPayload = true) :
    phase.deviceFinished.sendsPayload = true := by
  cases phase <;> first | rfl | cases h

theorem afterRemote_remoteFinished (h : phase.sendsPayload = true) :
    phase.remoteFinished.afterRemote = true := by
  cases phase <;> first | rfl | cases h

@[simp]
theorem afterDevice_remoteFinished : phase.remoteFinished.afterDevice = phase.afterDevice := by
  cases phase <;> rfl

end Phase

namespace TcpFlow

theorem not_initial_of_connected {phase : Phase} (h : phase.isConnecting = false) :
    phase ≠ .initial ∧ phase ≠ .synSent := by
  constructor <;> rintro rfl <;> cases h

/-- Phase and flags agree. -/
structure Consistent (f : TcpFlow) : Prop where
  remoteClosed_eq : f.remoteClosed = f.phase.afterRemote
  deviceClosed_eq : f.deviceClosed = f.phase.afterDevice
  pending_sends : f.pending = true → f.phase.sendsPayload = true
  writeShut_drained : f.writeShut = true → f.deviceClosed = true ∧ f.ring.isEmpty = true

theorem consistent_of_new {f : TcpFlow} (phase : f.phase = .initial)
    (remoteClosed : f.remoteClosed = false) (deviceClosed : f.deviceClosed = false)
    (pending : f.pending = false) (writeShut : f.writeShut = false) : Consistent f := by
  refine ⟨?_, ?_, ?_, ?_⟩ <;> simp [*, Phase.afterRemote, Phase.afterDevice]

variable {σ : Type} [Outlet σ] {stimulus : Stimulus} {f g : TcpFlow} {r r' : Registry}
  {out out' : σ} {mark : Mark}

private theorem SameState.consistent (h : SameState f g) (hf : Consistent f) : Consistent g := by
  refine ⟨?_, ?_, ?_, ?_⟩
  · rw [h.remoteClosed_eq, h.phase_eq, hf.remoteClosed_eq]
  · rw [h.deviceClosed_eq, h.phase_eq, hf.deviceClosed_eq]
  · rw [h.pending_eq, h.phase_eq]
    exact hf.pending_sends
  · rw [h.writeShut_eq, h.deviceClosed_eq, h.ring_eq]
    exact hf.writeShut_drained

/-- A move leaves an open flow consistent if it found it so. -/
theorem Move.consistent (h : Move stimulus ⟨f, r, out⟩ mark ⟨g, r', out'⟩)
    (hf : f.phase ≠ .closed → Consistent f) : g.phase ≠ .closed → Consistent g := by
  intro isOpen
  cases h with
  | opened _ phase _ _ =>
    obtain ⟨remote, device, pending, shut⟩ := hf (by simp [phase])
    rw [phase] at remote device pending
    exact ⟨remote, device, pending, shut⟩
  | reopened _ phase _ =>
    obtain ⟨remote, device, pending, shut⟩ := hf (by simp [phase])
    exact ⟨remote, device, pending, shut⟩
  | unconnected _ _ => exact hf isOpen
  | connected phase emits =>
    obtain ⟨remote, device, pending, shut⟩ := hf (by simp [phase])
    rw [phase] at remote device pending
    obtain ⟨remote, device, pending, shut⟩ := emits.same.consistent ⟨remote, device, pending, shut⟩
    exact ⟨remote, device, pending, shut⟩
  | acknowledged _ inOrder _ _ =>
    obtain ⟨remote, device, pending, shut⟩ := hf inOrder.isOpen
    exact ⟨by simpa using remote, by simpa using device,
      fun h => Phase.sendsPayload_confirmed (pending h), shut⟩
  | took _ inOrder _ phase _ _ emits =>
    obtain ⟨remote, device, pending, shut⟩ := hf inOrder.isOpen
    refine emits.same.consistent ⟨remote, device, pending, ?_⟩
    intro h
    have ended := (shut h).1
    rw [device] at ended
    cases hp : f.phase <;> simp_all [Phase.takesPayload, Phase.afterDevice]
  | ended _ atEnd phase emits =>
    obtain ⟨remote, device, pending, shut⟩ := hf atEnd.isOpen
    have finished := Phase.afterDevice_deviceFinished atEnd.connected atEnd.isOpen phase
    have same := emits.same
    refine ⟨?_, ?_, ?_, ?_⟩
    · simpa [same.phase_eq] using same.remoteClosed_eq.trans remote
    · simpa [same.phase_eq, finished] using same.deviceClosed_eq
    · intro h
      rw [same.phase_eq]
      exact Phase.sendsPayload_deviceFinished (pending (same.pending_eq.symm.trans h))
    · intro h
      rw [same.ring_eq]
      exact ⟨same.deviceClosed_eq, (shut (same.writeShut_eq.symm.trans h)).2⟩
  | missed reads _ =>
    exact reads.same.consistent (hf reads.isOpen)
  | delivered reads _ _ _ _ _ =>
    obtain ⟨remote, device, -, shut⟩ := reads.same.consistent (hf reads.isOpen)
    refine ⟨remote, device, fun _ => ?_, shut⟩
    rw [reads.same.phase_eq]
    exact reads.permitted.1
  | retried isOpen' pending' _ _ =>
    obtain ⟨remote, device, pending, shut⟩ := hf isOpen'
    exact ⟨remote, device, fun _ => pending pending', shut⟩
  | exhausted reads emits =>
    obtain ⟨sends, -, idle⟩ := reads.permitted
    obtain ⟨remote, device, pending, shut⟩ := reads.same.consistent (hf reads.isOpen)
    have same := emits.same
    refine ⟨?_, ?_, ?_, ?_⟩
    · simpa [same.phase_eq, reads.same.phase_eq, Phase.afterRemote_remoteFinished sends] using
        same.remoteClosed_eq
    · simpa [same.phase_eq] using same.deviceClosed_eq.trans device
    · intro h
      have idle' := same.pending_eq.trans (reads.same.pending_eq.trans idle)
      exact absurd (idle'.symm.trans h) Bool.false_ne_true
    · intro h
      rw [same.deviceClosed_eq, same.ring_eq]
      exact shut (same.writeShut_eq.symm.trans h)
  | wrote writes _ _ =>
    obtain ⟨remote, device, pending, shut⟩ := hf writes.isOpen
    refine ⟨remote, device, pending, ?_⟩
    intro h
    have drained := (shut h).2
    rw [writes.nonempty] at drained
    cases drained
  | blocked _ _ => exact hf isOpen
  | widened _ isOpen' _ emits => exact emits.same.consistent (hf isOpen')
  | shut isOpen' deviceClosed _ drained _ =>
    obtain ⟨remote, device, pending, -⟩ := hf isOpen'
    exact ⟨remote, device, pending, fun _ => ⟨deviceClosed, drained⟩⟩
  | told isOpen' _ =>
    obtain ⟨remote, device, pending, shut⟩ := hf isOpen'
    exact ⟨remote, device, pending, shut⟩
  | closed _ _ _ => exact absurd rfl isOpen

theorem Move.stays_connected (h : Move stimulus ⟨f, r, out⟩ mark ⟨g, r', out'⟩)
    (hf : f.phase.isConnecting = false) : g.phase.isConnecting = false := by
  cases h with
  | opened _ phase _ _ =>
    rw [phase] at hf
    cases hf
  | reopened _ _ _ => exact hf
  | unconnected _ _ => exact hf
  | connected phase _ =>
    rw [phase] at hf
    cases hf
  | acknowledged _ _ _ _ => exact Phase.isConnecting_confirmed.trans hf
  | took _ _ _ _ _ _ emits => exact (congrArg _ emits.same.phase_eq).trans hf
  | ended _ _ _ emits =>
    refine Phase.isConnecting_deviceFinished ?_
    exact (congrArg _ emits.same.phase_eq).trans hf
  | missed reads _ => exact (congrArg _ reads.same.phase_eq).trans hf
  | delivered reads _ _ _ _ _ => exact (congrArg _ reads.same.phase_eq).trans hf
  | retried _ _ _ _ => exact hf
  | exhausted reads emits =>
    refine Phase.isConnecting_remoteFinished ?_
    exact (congrArg _ (emits.same.phase_eq.trans reads.same.phase_eq)).trans hf
  | wrote _ _ _ => exact hf
  | blocked _ _ => exact hf
  | widened _ _ _ emits => exact (congrArg _ emits.same.phase_eq).trans hf
  | shut _ _ _ _ _ => exact hf
  | told _ _ => exact hf
  | closed _ _ _ => rfl

/-- A connected flow that the device has confirmed stays so. -/
theorem Move.stays_confirmed (h : Move stimulus ⟨f, r, out⟩ mark ⟨g, r', out'⟩)
    (hf : f.phase.isConnecting = false) (unconfirmed : g.phase = .synReceived) :
    f.phase = .synReceived := by
  cases h with
  | opened _ _ _ _ => cases unconfirmed
  | reopened _ _ _ => exact unconfirmed
  | unconnected _ _ => exact unconfirmed
  | connected phase _ =>
    rw [phase] at hf
    cases hf
  | acknowledged _ _ _ _ => exact absurd unconfirmed Phase.confirmed_ne_synReceived
  | took _ _ _ _ _ _ emits => exact emits.same.phase_eq.symm.trans unconfirmed
  | ended _ _ _ _ => exact absurd unconfirmed Phase.deviceFinished_ne_synReceived
  | missed reads _ => exact reads.same.phase_eq.symm.trans unconfirmed
  | delivered reads _ _ _ _ _ => exact reads.same.phase_eq.symm.trans unconfirmed
  | retried _ _ _ _ => exact unconfirmed
  | exhausted reads emits =>
    have same := emits.same.phase_eq.trans reads.same.phase_eq
    exact same.symm.trans (Phase.remoteFinished_eq_synReceived unconfirmed)
  | wrote _ _ _ => exact unconfirmed
  | blocked _ _ => exact unconfirmed
  | widened _ _ _ emits => exact emits.same.phase_eq.symm.trans unconfirmed
  | shut _ _ _ _ _ => exact unconfirmed
  | told _ _ => exact unconfirmed
  | closed _ _ _ => cases unconfirmed

theorem Path.stays_confirmed {s t : Scene TcpFlow σ} {steps : List Step}
    (h : Path stimulus s steps t) (connected : s.self.phase.isConnecting = false)
    (unconfirmed : t.self.phase = .synReceived) : s.self.phase = .synReceived :=
  (h.invariant (I := fun _ f => f.phase.isConnecting = false ∧
      (f.phase = .synReceived → s.self.phase = .synReceived))
    (fun hf move => ⟨move.stays_connected hf.1, fun hg => hf.2 (move.stays_confirmed hf.1 hg)⟩)
    [] ⟨connected, id⟩).2 unconfirmed

theorem Path.consistent {s t : Scene TcpFlow σ} {steps : List Step}
    (h : Path stimulus s steps t) (hs : s.self.phase ≠ .closed → Consistent s.self) :
    t.self.phase ≠ .closed → Consistent t.self :=
  h.invariant (I := fun _ f => f.phase ≠ .closed → Consistent f)
    (fun hf move => move.consistent hf) [] hs

end TcpFlow

end TunnelRelay
