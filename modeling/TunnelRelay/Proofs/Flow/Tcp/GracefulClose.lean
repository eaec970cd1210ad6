import TunnelRelay.Proofs.Flow.Tcp.FromDevice

/-!
# Graceful ends

A flow ends gracefully when the device has confirmed its end or sent its own. What was acknowledged
by then has been written, unless the socket refused the last write for the time being: nothing waits
for such a socket.
-/

namespace TunnelRelay

/-- Whether the call came to a failure that ends a flow. -/
def Event.isFatal : Event → Bool
  | .read _ _ (.error kind) | .write _ _ (.error kind) => kind != .wouldBlock && kind != .interrupted
  | .write _ _ (.ok bytes) => bytes.isEmpty
  | .register _ _ _ outcome | .reregister _ _ _ outcome | .deregister _ outcome => outcome.isSome
  | _ => false

namespace TcpFlow

/-- Whether the flow ended as connections do, and not by a reset, an error or a disconnect. -/
def Mark.isGraceful : Mark → Bool
  | closed (.confirmed _) _ | closed (.finished _ _) _ => true
  | _ => false

variable {σ : Type} [Outlet σ] {stimulus : Stimulus} {f g : TcpFlow} {r r' : Registry}
  {out out' : σ} {mark : Mark} {journal pre post : List Step} {step : Step} {s : Scene TcpFlow σ}

private def LeadsTo (journal : List Step) (f : TcpFlow) : Prop :=
  ∀ step, journal.getLast? = some step → step.after = f

private theorem Run.leadsTo (run : Run journal s) : LeadsTo journal s.self ∧
    ∀ pre step, pre ++ [step] <+: journal → LeadsTo pre step.before ∧ step.before.phase ≠ .closed := by
  have fresh {f : TcpFlow} (_ : Fresh f) : LeadsTo [] f := by
    intro step last
    cases last
  have preserved {stimulus : Stimulus} {journal : List Step} {f g : TcpFlow} {r r' : Registry}
      {out out' : σ} {mark : Mark} (_ : LeadsTo journal f)
      (_ : Move stimulus ⟨f, r, out⟩ mark ⟨g, r', out'⟩) :
      LeadsTo (journal ++ [⟨f, mark, g⟩]) g := by
    intro step last
    rw [List.getLast?_concat] at last
    cases last
    rfl
  refine ⟨run.invariant fresh preserved, fun pre step h => ?_⟩
  obtain ⟨before, -, _, _, _, _, _, move⟩ := run.invariant_step fresh preserved h
  exact ⟨before, move.isOpen⟩

theorem Run.eq_of_closed (run : Run journal s) (h : pre ++ [step] <+: journal)
    (closed : step.after.phase = .closed) : journal = pre ++ [step] ∧ step.after = s.self := by
  obtain ⟨post, rfl⟩ := h
  cases post with
  | nil => exact ⟨List.append_nil _, run.leadsTo.1 step (by simp)⟩
  | cons next post =>
    obtain ⟨last, isOpen⟩ := run.leadsTo.2 (pre ++ [step]) next ⟨post, by simp⟩
    exact absurd (last step (by simp) ▸ closed) isOpen

private theorem lastWrite_concat (step : Step) :
    lastWrite (journal ++ [step]) =
      (((step.mark.calls step.before).filterMap Event.writeResult?).getLast?).or
        (lastWrite journal) := by
  rw [lastWrite_append]
  simp [lastWrite, calls]

-- What the last write came to, in terms of ring and phase.
private structure Pressed (journal : List Step) (f : TcpFlow) : Prop where
  healthy : Healthy f
  stuck : ∀ kind, lastWrite journal = some (.error kind) → f.ring.isEmpty = false
  blocked : f.phase ≠ .closed → ∀ result, lastWrite journal = some result → Refused result →
    result = .error .wouldBlock

private theorem Pressed.aside (h : Pressed journal f)
    (move : Move stimulus ⟨f, r, out⟩ mark ⟨g, r', out'⟩)
    (silent : (mark.calls f).filterMap Event.writeResult? = [])
    (ring : f.ring.isEmpty = false → g.ring.isEmpty = false) :
    Pressed (journal ++ [⟨f, mark, g⟩]) g := by
  have same : lastWrite (journal ++ [⟨f, mark, g⟩]) = lastWrite journal := by
    rw [lastWrite_concat, silent]
    rfl
  refine ⟨move.healthy h.healthy, ?_, ?_⟩
  · rw [same]
    exact fun kind last => ring (h.stuck kind last)
  · rw [same]
    exact fun _ => h.blocked move.isOpen

private theorem Pressed.silent_of_ends {ending : Ending} (h : Ends stimulus f out ending g out')
    (socket : SocketId) :
    (ending.calls socket).filterMap Event.writeResult? = [] ∨
      ∃ result front, (ending.calls socket).filterMap Event.writeResult? = [result] ∧
        f.Writes front := by
  cases h with
  | resetByDevice _ _ _ => exact .inl rfl
  | confirmed _ _ _ _ _ => exact .inl rfl
  | finished _ _ _ _ => exact .inl rfl
  | refused _ _ => exact .inl (List.filterMap_cons_none (Registration.writeResult?_pollerCall _ _))
  | disconnected _ => exact .inl rfl
  | reset resets _ =>
    cases resets with
    | noRequest _ _ _ => exact .inl rfl
    | request _ _ _ => exact .inl rfl
    | connectError _ _ => exact .inl rfl
    | noPeer _ _ => exact .inl rfl
    | readError _ _ => exact .inl rfl
    | @writeError front writes result _ => exact .inr ⟨result, front, rfl, writes⟩

private theorem Move.pressed (h : Pressed journal f)
    (move : Move stimulus ⟨f, r, out⟩ mark ⟨g, r', out'⟩) :
    Pressed (journal ++ [⟨f, mark, g⟩]) g := by
  have move' := move
  cases move with
  | connected _ emits => exact h.aside move' rfl fun hr => emits.same.ring_eq ▸ hr
  | took _ _ nonempty _ _ pushed emits =>
    refine h.aside move' rfl fun _ => ?_
    have sound := h.healthy.sound.push pushed
    rw [emits.same.ring_eq, Bool.eq_false_iff, ne_eq, StreamRing.isEmpty_iff sound,
      StreamRing.toList_push h.healthy.sound pushed]
    simp [nonempty]
  | ended _ _ _ emits => exact h.aside move' rfl fun hr => emits.same.ring_eq ▸ hr
  | missed reads _ => exact h.aside move' rfl fun hr => reads.same.ring_eq ▸ hr
  | delivered reads _ _ _ _ _ =>
    refine h.aside move' ?_ fun hr => ?_
    · simp only [Mark.calls]
      split <;> rfl
    · exact (congrArg StreamRing.isEmpty reads.same.ring_eq).trans hr
  | retried _ _ _ _ =>
    refine h.aside move' ?_ id
    simp only [Mark.calls]
    split <;> rfl
  | exhausted reads emits =>
    refine h.aside move' rfl fun hr => ?_
    exact (congrArg StreamRing.isEmpty (emits.same.ring_eq.trans reads.same.ring_eq)).trans hr
  | wrote _ nonempty _ =>
    refine ⟨move'.healthy h.healthy, ?_, ?_⟩
    · intro kind last
      rw [lastWrite_concat] at last
      cases last
    · intro _ result last refused
      rw [lastWrite_concat] at last
      cases last
      rcases refused with ⟨⟨⟩⟩ | ⟨_, ⟨⟩, -⟩
      exact absurd rfl nonempty
  | blocked writes waits =>
    refine ⟨move'.healthy h.healthy, fun _ _ => writes.nonempty, ?_⟩
    intro _ result last refused
    rw [lastWrite_concat] at last
    cases last
    rcases waits with rfl | rfl
    · rfl
    · rcases refused with ⟨⟨⟩⟩ | ⟨_, ⟨⟩, retry⟩
      exact absurd rfl retry
  | widened _ _ _ emits => exact h.aside move' rfl fun hr => emits.same.ring_eq ▸ hr
  | told _ _ =>
    exact h.aside move' (List.filterMap_cons_none (Registration.writeResult?_pollerCall _ _)) id
  | closed _ ends cancels =>
    have ring := ends.same.1
    rcases Pressed.silent_of_ends ends f.socket with silent | ⟨result, front, _, writes⟩
    · refine h.aside move' ?_ fun hr => (congrArg StreamRing.isEmpty ring).trans hr
      rw [Mark.calls, List.filterMap_append, silent, cancels.silent]
      rfl
    · refine ⟨move'.healthy h.healthy, fun _ _ => ?_, fun isOpen => absurd rfl isOpen⟩
      exact (congrArg StreamRing.isEmpty ring).trans writes.nonempty
  | _ => exact h.aside move' rfl id

private theorem Fresh.pressed (hf : Fresh f) : Pressed [] f where
  healthy := hf.healthy
  stuck _ last := by cases last
  blocked _ _ last := by cases last

/-- An open flow whose last write took nothing is blocked, as every other refusal resets it. -/
theorem Run.blocked_of_refused (run : Run journal s) (isOpen : s.self.phase ≠ .closed)
    {result : Except ErrorKind Bytes} (last : lastWrite journal = some result)
    (refused : Refused result) : result = .error .wouldBlock :=
  (run.invariant (I := Pressed) Fresh.pressed Move.pressed).blocked isOpen result last refused

private theorem Move.quiet_of_graceful (move : Move stimulus ⟨f, r, out⟩ mark ⟨g, r', out'⟩)
    (graceful : mark.isGraceful = true) :
    (mark.calls f).filterMap Event.writeResult? = [] ∧ g.ring = f.ring ∧ g.phase = .closed := by
  cases move with
  | closed _ ends cancels =>
    refine ⟨?_, ends.same.1, rfl⟩
    rw [Mark.calls, List.filterMap_append, cancels.silent]
    cases ends with
    | confirmed _ _ _ _ _ => rfl
    | finished _ _ _ _ => rfl
    | _ => cases graceful
  | _ => cases graceful

/-- Flows that end gracefully have written all that they acknowledged, if and only if the last write
was not refused for the time being. -/
theorem Run.drained_of_graceful_iff (run : Run journal s) (h : pre ++ [step] <+: journal)
    (graceful : step.mark.isGraceful = true) :
    step.after = s.self ∧ s.self.phase = .closed ∧
      accepted journal = written journal ++ s.self.ring.toList ∧
      (s.self.ring.toList = [] ↔ lastWrite journal ≠ some (.error .wouldBlock)) := by
  obtain ⟨pressed, -, stimulus, r, r', out, out', move⟩ :=
    run.invariant_step (I := Pressed) Fresh.pressed Move.pressed h
  obtain ⟨silent, ring, closed⟩ := move.quiet_of_graceful graceful
  obtain ⟨rfl, after_eq⟩ := run.eq_of_closed h closed
  have same : lastWrite (pre ++ [step]) = lastWrite pre := by
    rw [lastWrite_concat, silent]
    rfl
  have healthy : Healthy s.self := after_eq ▸ move.healthy pressed.healthy
  refine ⟨after_eq, after_eq ▸ closed, run.upstream.stream_eq.symm, ?_, ?_⟩
  -- What is refused stays in the ring, and the end itself writes nothing.
  · intro drained last
    have stuck := pressed.stuck _ (same.symm.trans last)
    rw [← ring, after_eq, (StreamRing.isEmpty_iff healthy.sound).2 drained] at stuck
    cases stuck
  -- An open flow whose last write was refused is blocked, as every other refusal resets it.
  · intro last
    rcases run.settled with drained | ⟨result, written, refused⟩
    · exact (StreamRing.isEmpty_iff healthy.sound).1 drained
    · rw [pressed.blocked move.isOpen result (same.symm.trans written) refused] at written
      exact absurd written last

private theorem Ends.isGraceful {segment : Segment} {ending : Ending} {call : Option Event}
    (h : Ends (.segment segment) f out ending g out') (connected : f.phase.isConnecting = false)
    (not_syn : segment.flags.has .syn = false) (not_rst : segment.flags.has .rst = false)
    (calm : ∀ event ∈ ending.calls f.socket, event.isFatal = false) :
    (Mark.closed ending call).isGraceful = true := by
  cases h with
  | resetByDevice received _ rst =>
    cases received
    rw [not_rst] at rst
    cases rst
  | confirmed _ _ _ _ _ => rfl
  | finished _ _ _ _ => rfl
  | refused _ kind =>
    have fatal := calm _ (List.mem_singleton_self _)
    unfold Registration.pollerCall at fatal
    split at fatal <;> cases fatal
  | disconnected asked => cases asked
  | reset resets _ =>
    cases resets with
    | noRequest _ phase _ =>
      rw [phase] at connected
      cases connected
    | request received _ syn =>
      cases received
      rw [not_syn] at syn
      cases syn
    | connectError phase _ =>
      rw [phase] at connected
      cases connected
    | noPeer phase _ =>
      rw [phase] at connected
      cases connected
    | readError _ failed =>
      have fatal := calm _ (List.mem_append_left _ (List.mem_singleton_self _))
      simp [Event.isFatal, failed] at fatal
    | writeError _ failed =>
      have fatal := calm _ (List.mem_append_left _ (List.mem_singleton_self _))
      rcases failed with rfl | ⟨kind, rfl, failed⟩
      · cases fatal
      · simp [Event.isFatal, failed] at fatal

private theorem Move.ends_of_closed (move : Move stimulus ⟨f, r, out⟩ mark ⟨g, r', out'⟩)
    (closed : g.phase = .closed) :
    ∃ ending call g', mark = .closed ending call ∧ Ends stimulus f out ending g' out' := by
  have isOpen := move.isOpen
  cases move with
  | closed _ ends _ => exact ⟨_, _, _, rfl, ends⟩
  | opened _ _ _ _ => cases closed
  | reopened _ _ _ => exact absurd closed isOpen
  | unconnected _ _ => exact absurd closed isOpen
  | connected _ emits => cases emits.same.phase_eq.symm.trans closed
  | acknowledged _ _ _ _ => exact absurd (Phase.confirmed_eq_closed.1 closed) isOpen
  | took _ _ _ _ _ _ emits => exact absurd (emits.same.phase_eq.symm.trans closed) isOpen
  | ended _ _ _ emits =>
    change Phase.deviceFinished _ = _ at closed
    rw [emits.same.phase_eq] at closed
    cases hp : f.phase <;> simp_all [Phase.deviceFinished]
  | missed reads _ => exact absurd (reads.same.phase_eq.symm.trans closed) isOpen
  | delivered reads _ _ _ _ _ => exact absurd (reads.same.phase_eq.symm.trans closed) isOpen
  | retried _ _ _ _ => exact absurd closed isOpen
  | exhausted reads emits =>
    change Phase.remoteFinished _ = _ at closed
    rw [emits.same.phase_eq, reads.same.phase_eq] at closed
    cases hp : f.phase <;> simp_all [Phase.remoteFinished]
  | wrote _ _ _ => exact absurd closed isOpen
  | blocked _ _ => exact absurd closed isOpen
  | widened _ _ _ emits => exact absurd (emits.same.phase_eq.symm.trans closed) isOpen
  | shut _ _ _ _ _ => exact absurd closed isOpen
  | told _ _ => exact absurd closed isOpen

/-- A connected flow that a segment closes ends gracefully if the segment does not ask for something
else and no call fails. -/
theorem Path.isGraceful_of_calm {segment : Segment} {steps : List Step} {t : Scene TcpFlow σ}
    (path : Path (.segment segment) s steps t) (connected : s.self.phase.isConnecting = false)
    (isOpen : s.self.phase ≠ .closed) (closed : t.self.phase = .closed)
    (not_syn : segment.flags.has .syn = false) (not_rst : segment.flags.has .rst = false)
    (calm : ∀ event ∈ calls steps, event.isFatal = false) :
    ∃ pre step, steps = pre ++ [step] ∧ step.mark.isGraceful = true := by
  have all := path.invariant (I := fun steps f => f.phase.isConnecting = false ∧
    (f.phase = .closed → (∀ event ∈ calls steps, event.isFatal = false) →
      ∃ pre step, steps = pre ++ [step] ∧ step.mark.isGraceful = true)) ?_ []
    ⟨connected, fun closed => absurd closed isOpen⟩
  · exact all.2 closed calm
  · rintro journal f g r r' out out' mark ⟨connected, -⟩ move
    refine ⟨move.stays_connected connected, fun closed calm => ⟨journal, _, rfl, ?_⟩⟩
    obtain ⟨ending, call, g', rfl, ends⟩ := move.ends_of_closed closed
    refine ends.isGraceful connected not_syn not_rst fun event he => calm event ?_
    simp only [calls, List.flatMap_append, List.flatMap_singleton, Mark.calls]
    exact List.mem_append_right _ (List.mem_append_left _ he)

/-- Whether a segment is handled that does not ask for another connection or for none. -/
def Stimulus.isPlain : Stimulus → Bool
  | .segment found => !found.flags.has .syn && !found.flags.has .rst
  | _ => false

/-- Whether the operation closes a flow that waits for the device's end, without a failure, and leaves
these bytes in the ring. -/
def endsWith (rest : Bytes) (operation : Operation) (s : Scene TcpFlow Credit) : Bool :=
  match operation.perform s with
  | .ok (_, t) =>
    s.self.phase == .finWait2 && t.self.phase == .closed && t.self.ring.toList == rest &&
      (t.host.calls.take (t.host.calls.length - s.host.calls.length)).all fun event =>
        !event.isFatal
  | .error _ => false

theorem Run.exists_graceful {s : Scene TcpFlow Credit} {rest : Bytes} {operation : Operation}
    (run : Run journal s) (plain : operation.stimulus.isPlain = true)
    (ends : endsWith rest operation s = true) :
    ∃ pre step, ∃ t : Scene TcpFlow Credit, Run (pre ++ [step]) t ∧ step.mark.isGraceful = true ∧
      t.self.ring.toList = rest := by
  unfold endsWith at ends
  split at ends
  · next t performed =>
    simp only [Bool.and_eq_true, beq_iff_eq] at ends
    obtain ⟨⟨⟨phase, closed⟩, left⟩, calm⟩ := ends
    obtain ⟨steps, path, run', called⟩ := run.continues operation t performed
    cases hs : operation.stimulus with
    | segment found =>
      rw [hs] at path plain
      simp only [Stimulus.isPlain, Bool.and_eq_true, Bool.not_eq_true'] at plain
      rw [called] at calm
      obtain ⟨pre, step, rfl, graceful⟩ := path.isGraceful_of_calm (by rw [phase]; rfl)
        (by simp [phase]) closed plain.1 plain.2 (by simpa using calm)
      exact ⟨journal ++ pre, step, t, by simpa using run', graceful, left⟩
    | _ =>
      rw [hs] at plain
      cases plain
  · cases ends

-- Up to the device's end: the remote end has finished first, and the device has sent a greeting.
private def conversation : List (Credit × Operation) :=
  [(⟨none⟩, .ofDevice .syn 0x110 0 []),
    (⟨none⟩, .ready { writable := true }),
    (⟨none⟩, .ofDevice .ack 0x111 0x1001 []),
    (⟨none⟩, .ofDevice .ack 0x111 0x1002 []),
    (⟨none⟩, .ofDevice (.psh ∪ .ack) 0x111 0x1002 [104, 101, 108, 108, 111])]

private def farewell : Operation := .ofDevice (.fin ∪ .ack) 0x116 0x1002 []

private theorem exists_farewell (rest : Bytes) (transfers : List Transfer)
    (h : enacts (devicePacket .syn 0x110 0 []) { streamCapacity := 16 }
      { sockets := [(0, { arrivals := [.finished], transfers })] } conversation
      (fun _ t => endsWith rest farewell t) = true) :
    ∃ pre step, ∃ t : Scene TcpFlow Credit, Run (pre ++ [step]) t ∧ step.mark.isGraceful = true ∧
      t.self.ring.toList = rest := by
  obtain ⟨journal, s, run, ends⟩ := exists_run_of_enacts h
  exact run.exists_graceful (by decide +kernel) ends

/-- The greeting is written at once, and nothing is lost. -/
theorem drained_of_graceful_greeting : ∃ pre step, ∃ s : Scene TcpFlow Credit,
    Run (pre ++ [step]) s ∧ step.mark.isGraceful = true ∧ s.self.ring.toList = [] ∧
      lastWrite (pre ++ [step]) ≠ some (.error .wouldBlock) := by
  obtain ⟨pre, step, s, run, graceful, drained⟩ :=
    exists_farewell [] [] (by decide +kernel)
  have drained_iff := (run.drained_of_graceful_iff (List.prefix_refl _) graceful).2.2.2
  exact ⟨pre, step, s, run, graceful, drained, drained_iff.1 drained⟩

/-- The greeting is acknowledged, but the socket takes nothing for now, and what was acknowledged is
lost with the flow. -/
theorem not_drained_of_graceful : ¬∀ (pre : List Step) (step : Step) (s : Scene TcpFlow Credit),
    Run (pre ++ [step]) s → step.mark.isGraceful = true → s.self.ring.toList = [] := by
  intro drained
  obtain ⟨pre, step, s, run, graceful, left⟩ :=
    exists_farewell [104, 101, 108, 108, 111] [.failure .wouldBlock] (by decide +kernel)
  rw [drained pre step s run graceful] at left
  cases left

end TcpFlow

end TunnelRelay
