import TunnelRelay.Proofs.Flow.Tcp.Faultless
import TunnelRelay.Proofs.Flow.Tcp.FromDevice
import TunnelRelay.Proofs.Flow.Tcp.Turn

/-!
# The end of the device's stream

The socket is told that there is no more to write once, after the device has finished and all that it
sent was written, and then at once: an open flow that rests has either bytes left, or a device that goes
on, or a socket that has been told. The end of a segment whose payload was turned away is turned away
with it.
-/

namespace TunnelRelay

open Act

/-- The socket that is told that there is no more to write. -/
def Event.shuts? : Event → Option SocketId
  | shutdownWrite socket _ => some socket
  | _ => none

theorem Registration.shuts?_pollerCall {r : Registration} {socket : SocketId}
    (wanted : Option Interest) (outcome : Outcome) :
    (r.pollerCall socket wanted outcome).shuts? = none := by
  unfold pollerCall
  split <;> rfl

namespace TcpFlow

/-- The sockets that were told, once for each time. -/
def shuts (steps : List Step) : List SocketId := (calls steps).filterMap Event.shuts?

variable {σ : Type} [Outlet σ] {stimulus : Stimulus} {f g : TcpFlow} {r r' : Registry}
  {out out' : σ} {mark : Mark} {journal pre steps : List Step} {step : Step}
  {s t : Scene TcpFlow σ} {segment : Segment}

theorem shuts_concat (step : Step) :
    shuts (journal ++ [step]) =
      shuts journal ++ (step.mark.calls step.before).filterMap Event.shuts? := by
  simp [shuts, calls]

private theorem Cancels.shuts_eq {registration : Registration} {call : Option Event}
    (h : f.Cancels registration call) : call.toList.filterMap Event.shuts? = [] := by
  cases h <;> rfl

private theorem Ends.writeShut_eq {ending : Ending} (h : Ends stimulus f out ending g out') :
    (ending.calls f.socket).filterMap Event.shuts? = [] ∧ g.writeShut = f.writeShut := by
  cases h with
  | finished _ _ _ emits => exact ⟨rfl, emits.same.writeShut_eq⟩
  | refused _ _ => exact ⟨List.filterMap_cons_none (Registration.shuts?_pollerCall _ _), rfl⟩
  | reset resets emits =>
    have same := emits.same.writeShut_eq
    cases resets with
    | readError reads _ => exact ⟨rfl, same.trans reads.same.writeShut_eq⟩
    | _ => exact ⟨rfl, same⟩
  | _ => exact ⟨rfl, rfl⟩

/-- The socket is told by one kind of move, which nothing but an empty ring and a device that has
finished allows. -/
theorem Move.shuts_cases (move : Move stimulus ⟨f, r, out⟩ mark ⟨g, r', out'⟩) :
    ((mark.calls f).filterMap Event.shuts? = [] ∧ g.writeShut = f.writeShut) ∨
    ((mark.calls f).filterMap Event.shuts? = [f.socket] ∧ f.writeShut = false ∧
      g.writeShut = true ∧ f.deviceClosed = true ∧ f.ring.isEmpty = true) := by
  cases move with
  | shut _ deviceClosed writeShut drained _ => exact .inr ⟨rfl, writeShut, rfl, deviceClosed, drained⟩
  | connected _ emits => exact .inl ⟨rfl, emits.same.writeShut_eq⟩
  | took _ _ _ _ _ _ emits => exact .inl ⟨rfl, emits.same.writeShut_eq⟩
  | ended _ _ _ emits => exact .inl ⟨rfl, emits.same.writeShut_eq⟩
  | widened _ _ _ emits => exact .inl ⟨rfl, emits.same.writeShut_eq⟩
  | missed reads _ => exact .inl ⟨rfl, reads.same.writeShut_eq⟩
  | delivered reads _ _ _ _ _ =>
    refine .inl ⟨?_, reads.same.writeShut_eq⟩
    simp only [Mark.calls]
    split <;> rfl
  | retried _ _ _ _ =>
    refine .inl ⟨?_, rfl⟩
    simp only [Mark.calls]
    split <;> rfl
  | exhausted reads emits => exact .inl ⟨rfl, emits.same.writeShut_eq.trans reads.same.writeShut_eq⟩
  | told _ _ => exact .inl ⟨List.filterMap_cons_none (Registration.shuts?_pollerCall _ _), rfl⟩
  | closed _ ends cancels =>
    obtain ⟨silent, same⟩ := ends.writeShut_eq
    refine .inl ⟨?_, same⟩
    rw [Mark.calls, List.filterMap_append, silent, cancels.shuts_eq]
    rfl
  | _ => exact .inl ⟨rfl, rfl⟩

/-- A flow writes only what it holds. -/
theorem Move.nonempty_of_writes (move : Move stimulus ⟨f, r, out⟩ mark ⟨g, r', out'⟩)
    (writes : (mark.calls f).filterMap Event.writeResult? ≠ []) : f.ring.isEmpty = false := by
  cases upstream : mark.isUpstream with
  | false => exact absurd (move.unwritten upstream).1 writes
  | true =>
    cases move with
    | wrote h _ _ => exact h.nonempty
    | blocked h _ => exact h.nonempty
    | took => exact absurd rfl writes
    | closed _ ends _ =>
      cases ends with
      | reset resets _ =>
        cases resets with
        | writeError h _ => exact h.nonempty
        | _ => cases upstream
      | _ => cases upstream
    | _ => cases upstream

/-- The flow remembers whether it has told the socket. -/
structure Shutting (journal : List Step) (f : TcpFlow) : Prop where
  uplink : Uplink journal f
  consistent : f.phase ≠ .closed → Consistent f
  shuts_eq : shuts journal = if f.writeShut then [f.socket] else []
  deviceClosed_eq : f.deviceClosed = decide (0 < ends journal)

theorem Fresh.shutting (fresh : Fresh f) : Shutting [] f where
  uplink := fresh.uplink
  consistent _ := fresh.consistent
  shuts_eq := by
    cases shut : f.writeShut with
    | false => rfl
    | true =>
      obtain ⟨ended, -⟩ := fresh.consistent.writeShut_drained shut
      rw [fresh.consistent.deviceClosed_eq, fresh.phase_eq] at ended
      cases ended
  deviceClosed_eq := by
    rw [fresh.consistent.deviceClosed_eq, fresh.phase_eq]
    rfl

theorem Move.shutting (h : Shutting journal f)
    (move : Move stimulus ⟨f, r, out⟩ mark ⟨g, r', out'⟩) :
    Shutting (journal ++ [⟨f, mark, g⟩]) g where
  uplink := move.uplink h.uplink
  consistent := move.consistent h.consistent
  shuts_eq := by
    have socket : g.socket = f.socket := move.sameFlow.socket_eq
    rw [shuts_concat, h.shuts_eq, socket]
    obtain ⟨silent, same⟩ | ⟨told, before, after, -, -⟩ := move.shuts_cases
    · rw [silent, same, List.append_nil]
    · rw [told, before, after]
      rfl
  deviceClosed_eq := by
    rw [move.deviceClosed_eq, h.deviceClosed_eq, ends_concat]
    cases mark.isEnd <;> simp

/-- What leaves the ring and the device's end alone leaves nothing to be told. -/
theorem Move.halfClosed (h : f.HalfClosed) (move : Move stimulus ⟨f, r, out⟩ mark ⟨g, r', out'⟩)
    (aside : mark.isUpstream = false) (noEnd : g.phase ≠ .closed → mark.isEnd = false) :
    g.HalfClosed := by
  intro isOpen deviceClosed drained
  rw [move.deviceClosed_eq, noEnd isOpen, Bool.or_false] at deviceClosed
  rw [(move.unwritten aside).2] at drained
  have told := h move.isOpen deviceClosed drained
  obtain ⟨-, same⟩ | ⟨-, -, after, -, -⟩ := move.shuts_cases
  · exact same.trans told
  · exact after

theorem Course.halfClosed (course : Course stimulus s steps t) (h : s.self.HalfClosed) :
    t.self.HalfClosed := by
  induction course with
  | quiet => exact h
  | aside move _ aside =>
    refine move.halfClosed h (Mark.not_isUpstream_of_isAside aside) fun isOpen => ?_
    cases move with
    | closed => exact absurd rfl isOpen
    | _ => first | rfl | cases aside
  | reading path downstream _ =>
    refine path.invariant_of (p := fun step => step.mark.isDownstream = true)
      (I := fun _ f => f.HalfClosed) ?_ downstream [] h
    intro journal f g r r' out out' mark hf move downstream
    exact move.halfClosed hf (Mark.not_isUpstream_of_isDownstream downstream)
      fun _ => Mark.not_isEnd_of_isDownstream downstream
  | writing drains => exact drains.halfClosed
  | ending _ _ _ _ halfClosed _ => exact halfClosed
  | append _ _ ih ih' => exact ih' (ih h)

theorem Run.halfClosed (run : Run journal s) : s.self.HalfClosed := by
  refine run.at_rest (I := fun _ f => f.HalfClosed) ?_ fun _ course => course.halfClosed
  intro f fresh _ deviceClosed
  rw [fresh.consistent.deviceClosed_eq, fresh.phase_eq] at deviceClosed
  cases deviceClosed

/-- The next number stays the same unless payload is taken or the end is noted. -/
theorem Move.expected_of_untaken (move : Move (.segment segment) ⟨f, r, out⟩ mark ⟨g, r', out'⟩)
    (untaken : ∀ sent, mark ≠ .took segment sent) (noEnd : mark.isEnd = false) :
    g.expected = f.expected ∨ f.phase.isConnecting = true ∧ g.expected = segment.opening := by
  cases move.expects with
  | same _ expected_eq => exact .inl expected_eq
  | opening received connecting _ expected_eq =>
    cases received
    exact .inr ⟨connecting, expected_eq⟩
  | took mark_eq received _ _ =>
    cases received
    exact absurd mark_eq (untaken _)
  | ended isEnd _ _ _ => exact absurd (noEnd.symm.trans isEnd) Bool.false_ne_true

theorem Path.expected_of_untaken (path : Path (.segment segment) s steps t)
    (untaken : ¬Takes segment steps) (noEnd : ∀ step ∈ steps, step.mark.isEnd = false) :
    t.self.expected = s.self.expected ∨
      s.self.phase.isConnecting = true ∧ t.self.expected = segment.opening := by
  refine (path.invariant (I := fun journal f => ¬Takes segment journal →
    (∀ step ∈ journal, step.mark.isEnd = false) →
      (f.phase.isConnecting = true → s.self.phase.isConnecting = true) ∧
      (f.expected = s.self.expected ∨
        s.self.phase.isConnecting = true ∧ f.expected = segment.opening)) ?_ []
    (fun _ _ => ⟨id, .inl rfl⟩) untaken noEnd).2
  intro journal f g r r' out out' mark hf move untaken noEnd
  obtain ⟨connecting, before⟩ := hf (fun takes => untaken (takes.append _))
    fun step listed => noEnd step (List.mem_append_left _ listed)
  have last := move.expected_of_untaken
    (fun sent took => untaken ⟨_, List.mem_append_right _ List.mem_cons_self, sent, took⟩)
    (noEnd _ (List.mem_append_right _ List.mem_cons_self))
  refine ⟨fun still => connecting ?_, ?_⟩
  · by_contra connected
    rw [Bool.not_eq_true] at connected
    exact Bool.false_ne_true ((move.stays_connected connected).symm.trans still)
  · rcases last with same | ⟨still, opening⟩
    · rwa [same]
    · exact .inr ⟨connecting still, opening⟩

/-- The end of a segment whose payload was not taken changes nothing. -/
theorem Run.exists_whole {packet : Packet} (run : Run journal s)
    (found : Segment.ofPacket packet = .ok (some segment)) (nonempty : segment.payload ≠ [])
    (received : receive packet s = .ok ((), t)) :
    ∃ more, Path (.segment segment) s more t ∧ Run (journal ++ more) t ∧
      (Takes segment more ∨ ends (journal ++ more) = ends journal ∧
        t.self.deviceClosed = s.self.deviceClosed ∧
        (t.self.expected = s.self.expected ∨
          s.self.phase.isConnecting = true ∧ t.self.expected = segment.opening)) := by
  obtain ⟨more, path, whole⟩ : ∃ more, Path (.segment segment) s more t ∧ Whole segment more := by
    refine (?_ : Ensures (receive packet) s fun _ t =>
      ∃ more, Path (.segment segment) s more t ∧ Whole segment more) () t received
    refine ensures_receive run.consistent fun found' hf more u reception _ => ?_
    obtain rfl : found' = some segment := Except.ok.inj (hf.symm.trans found)
    exact ⟨more, reception.path, reception.whole segment rfl⟩
  have run' := run.act_receive found received path
  refine ⟨more, path, run', ?_⟩
  by_cases taken : Takes segment more
  · exact .inl taken
  have noEnd := (whole.resolve_left nonempty).resolve_left taken
  have none : ends more = 0 := List.countP_eq_zero.2 fun step listed => by simp [noEnd step listed]
  have same : ends (journal ++ more) = ends journal := by
    rw [ends, List.countP_append, show List.countP _ more = 0 from none]
    rfl
  refine .inr ⟨same, ?_, path.expected_of_untaken taken noEnd⟩
  rw [run'.deviceClosed_eq, run.deviceClosed_eq, same]

/-- In every run the flow's own socket is told at most once that there is no more to write, after the
end of the device's stream was noted and when all that was taken has been written, and it is never
written to afterwards. An open flow that rests has told it as soon as both are true. The end of a segment
whose payload is not taken is not noted either. -/
theorem Run.half_close_exact (run : Run journal s) :
    Continues journal s ∧
    (shuts journal = [] ∨ shuts journal = [s.self.socket]) ∧
    (∀ pre step, pre ++ [step] <+: journal →
      (∀ socket outcome, .shutdownWrite socket outcome ∈ step.mark.calls step.before →
        shuts pre = [] ∧ 0 < ends pre ∧ written pre = accepted pre) ∧
      ∀ socket size result, .write socket size result ∈ step.mark.calls step.before →
        shuts pre = []) ∧
    (s.self.phase ≠ .closed →
      (shuts journal = [s.self.socket] ↔ 0 < ends journal ∧ s.self.ring.toList = [])) ∧
    (∀ packet segment t, Segment.ofPacket packet = .ok (some segment) →
      segment.flags.has .fin = true → segment.payload ≠ [] → receive packet s = .ok ((), t) →
      ∃ more, Path (.segment segment) s more t ∧ Run (journal ++ more) t ∧
        (Takes segment more ∨ ends (journal ++ more) = ends journal ∧
          t.self.deviceClosed = s.self.deviceClosed ∧
          (t.self.expected = s.self.expected ∨
            s.self.phase.isConnecting = true ∧ t.self.expected = segment.opening))) ∧
    ∀ (journal : List Step) (s : Scene TcpFlow Outbox), Run journal s → s.out.ring.Sound →
      ∀ bytes packet, Packet.ofBytes bytes = .ok packet → ∃ t, receive packet s = .ok ((), t) := by
  have shutting := run.invariant (I := Shutting) Fresh.shutting Move.shutting
  refine ⟨run.continues, ?_, ?_, ?_, ?_, fun journal s run sound bytes packet =>
    run.receive_isOk sound⟩
  · rw [shutting.shuts_eq]
    cases s.self.writeShut <;> simp
  · rintro pre ⟨f, mark, g⟩ h
    obtain ⟨before, -, stimulus, r, r', out, out', move⟩ :=
      run.invariant_step (I := Shutting) Fresh.shutting Move.shutting h
    refine ⟨fun socket outcome told => ?_, fun socket size result wrote => ?_⟩
    · have mem : socket ∈ (mark.calls f).filterMap Event.shuts? :=
        List.mem_filterMap.2 ⟨_, told, rfl⟩
      obtain ⟨silent, -⟩ | ⟨-, untold, -, ended, drained⟩ := move.shuts_cases
      · rw [silent] at mem
        cases mem
      · have empty := (StreamRing.isEmpty_iff before.uplink.healthy.sound).1 drained
        refine ⟨by rw [before.shuts_eq, untold]; rfl, ?_, ?_⟩
        · exact of_decide_eq_true (before.deviceClosed_eq.symm.trans ended)
        · rw [← before.uplink.upstream.stream_eq, empty, List.append_nil]
    · have held := move.nonempty_of_writes
        (List.ne_nil_of_mem (List.mem_filterMap.2 ⟨_, wrote, rfl⟩))
      rw [before.shuts_eq]
      cases untold : f.writeShut with
      | false => rfl
      | true =>
        have drained := ((before.consistent move.isOpen).writeShut_drained untold).2
        exact absurd (held.symm.trans drained) Bool.false_ne_true
  · intro isOpen
    have empty := StreamRing.isEmpty_iff shutting.uplink.healthy.sound
    rw [shutting.shuts_eq]
    constructor
    · intro told
      have shut : s.self.writeShut = true := by
        by_contra untold
        simp [untold] at told
      obtain ⟨ended, drained⟩ := (shutting.consistent isOpen).writeShut_drained shut
      exact ⟨by simpa [shutting.deviceClosed_eq] using ended, empty.1 drained⟩
    · rintro ⟨ended, drained⟩
      rw [run.halfClosed isOpen (by simpa [shutting.deviceClosed_eq] using ended) (empty.2 drained)]
      rfl
  · exact fun packet segment t found _ => run.exists_whole found

/-- A device ends its stream behind bytes that there is no room for at first. The socket is told once the
device has sent them again and they were written. -/
theorem half_close_exact_again : ∃ journal, ∃ s : Scene TcpFlow Credit, Run journal s ∧
    s.self.phase ≠ .closed ∧ shuts journal = [s.self.socket] ∧ 0 < ends journal ∧
      accepted journal = [97, 98, 99, 104, 101, 108, 108, 111] := by
  obtain ⟨journal, s, run, result⟩ := exists_run_of_enacts
    (p := fun events t => events.filterMap Event.shuts? == [t.self.socket] &&
      t.self.phase == .closeWait &&
      events.flatMap Event.written == [97, 98, 99, 104, 101, 108, 108, 111])
    (show enacts (devicePacket .syn 0x110 0 []) { streamCapacity := 5 }
      { sockets := [(0, { transfers := [.failure .wouldBlock, .upTo 2] })] }
      [(⟨none⟩, .ofDevice .syn 0x110 0 []),
        (⟨none⟩, .ready { writable := true }),
        (⟨none⟩, .ofDevice .ack 0x111 0x1001 []),
        (⟨none⟩, .ofDevice (.psh ∪ .ack) 0x111 0x1001 [97, 98, 99]),
        (⟨none⟩, .ofDevice (.fin ∪ .ack) 0x114 0x1001 [104, 101, 108, 108, 111]),
        (⟨none⟩, .ready { writable := true }),
        (⟨none⟩, .ofDevice (.fin ∪ .ack) 0x114 0x1001 [104, 101, 108, 108, 111])] _ = true by
      decide +kernel)
  simp only [Bool.and_eq_true, beq_iff_eq] at result
  obtain ⟨⟨told, phase⟩, wrote⟩ := result
  have isOpen : s.self.phase ≠ .closed := by simp [phase]
  obtain ⟨ended, empty⟩ := (run.half_close_exact.2.2.2.1 isOpen).1 told
  refine ⟨journal, s, run, isOpen, told, ended, ?_⟩
  rw [← run.upstream.stream_eq, empty, show written journal = _ from wrote]
  rfl

end TcpFlow

end TunnelRelay
