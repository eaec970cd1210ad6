import TunnelRelay.Proofs.Flow.Tcp.Readiness
import TunnelRelay.Proofs.Flow.Udp.Readiness

/-!
# No readiness is lost

A flow whose socket became ready while nobody listened would wait for ever. Flows of both protocols
therefore try at once whatever they come to be able to do, and wait for nothing but what the socket did
not let them do the last time.
-/

namespace TunnelRelay.Flow

variable {σ : Type} [Outlet σ]

/-- As long as a flow is open, what it waits for is what its socket did not let it do the last time. The
only socket that was not read, though it may be, is that of a connection that the device finished
before it confirmed it, and the poller was told of it by that very operation. When the packet that a UDP
flow held back is taken, its socket is read until there is nothing for now, another packet is refused,
or the flow ends. -/
theorem no_readiness_lost :
    (∀ (journal : List TcpFlow.Step) (s : Scene TcpFlow σ), TcpFlow.Run journal s →
      (s.self.phase ≠ .closed → TcpFlow.Attentive journal s.self) ∧
      ∀ (operation : TcpFlow.Operation) (t : Scene TcpFlow σ), operation.perform s = .ok ((), t) →
        s.self.phase.isOpening = true → t.self.phase = .closeWait →
        ∃ steps, TcpFlow.Run (journal ++ steps) t ∧
          t.host.calls = (TcpFlow.calls steps).reverse ++ s.host.calls ∧
          (TcpFlow.lastRead steps = none →
            s.self.registration.interest.any Interest.reads = false ∧
            ∃ e ∈ TcpFlow.calls steps, ∃ interest,
              e.accepted? = some (some interest) ∧ interest.reads = true)) ∧
    ∀ (journal : List UdpFlow.Step) (s : Scene UdpFlow σ), UdpFlow.Run journal s →
      (s.self.closed = false → UdpFlow.Attentive journal s.self) ∧
      ∀ (operation : UdpFlow.Operation) (t : Scene UdpFlow σ), operation.perform s = .ok ((), t) →
        s.self.pending = true →
        ∃ steps, UdpFlow.Course operation s steps t ∧ UdpFlow.Run (journal ++ steps) t ∧
          t.host.calls = (UdpFlow.calls steps).reverse ++ s.host.calls ∧
          ((∃ step ∈ steps, step.after.pending = false) → t.self.closed = true ∨
            t.self.pending = true ∧ UdpFlow.Refuses steps ∨
              UdpFlow.lastReceive steps = some (.error .wouldBlock)) := by
  constructor
  · intro journal s run
    exact ⟨run.attentive, fun operation t performed => run.first_reads performed⟩
  · intro journal s run
    exact ⟨run.attentive, fun operation t performed => run.reads_of_cleared performed⟩

/-- A device finishes its connection without having confirmed it, and what there is to read is news to
the poller. Another one takes the packet that a flow held back, whose socket then is read at once, while
a datagram that it does not take still waits. -/
theorem no_readiness_lost_waiting :
    (∃ journal, ∃ s t : Scene TcpFlow Credit, TcpFlow.Run journal s ∧ s.self.phase = .synReceived ∧
      (TcpFlow.Operation.ofDevice .fin 0x111 0 []).perform s = .ok ((), t) ∧
      ∃ steps, TcpFlow.Unheard (journal ++ steps) ∧
        ∃ e ∈ TcpFlow.calls steps, ∃ interest,
          e.accepted? = some (some interest) ∧ interest.reads = true) ∧
    ∃ journal, ∃ s t : Scene UdpFlow Credit, UdpFlow.Run journal s ∧ s.self.pending = true ∧
      UdpFlow.lastSend journal = some (.error .wouldBlock) ∧
      UdpFlow.Operation.pull.perform s = .ok ((), t) ∧
      ∃ steps, UdpFlow.lastReceive steps = some (.error .wouldBlock) := by
  obtain ⟨tcp, udp⟩ := no_readiness_lost (σ := Credit)
  constructor
  · obtain ⟨journal, s, run, result⟩ := TcpFlow.exists_run_of_enacts
      (p := fun _ s => s.self.phase == .synReceived &&
        Act.endsAs (TcpFlow.Operation.ofDevice .fin 0x111 0 []).perform s fun t =>
          t.self.phase == .closeWait && t.self.mayRead && t.self.roomAtDevice != 0 &&
            (t.host.calls.filterMap Event.readResult?).isEmpty)
      (show TcpFlow.enacts (TcpFlow.devicePacket .syn 0x110 0 []) { streamCapacity := 16 } {}
        [(⟨none⟩, .ofDevice .syn 0x110 0 []), (⟨none⟩, .ready { writable := true })] _ = true by
        decide +kernel)
    rw [Bool.and_eq_true, beq_iff_eq] at result
    obtain ⟨opening, result⟩ := result
    obtain ⟨t, performed, result⟩ := Act.exists_of_endsAs result
    simp only [Bool.and_eq_true, beq_iff_eq, bne_iff_ne, List.isEmpty_iff] at result
    obtain ⟨⟨⟨finished, may⟩, room⟩, never⟩ := result
    obtain ⟨steps, run', called, told⟩ :=
      (tcp journal s run).2 _ t performed (by rw [opening]; rfl) finished
    have unread : TcpFlow.lastRead steps = none := by
      rw [called, List.filterMap_append, List.append_eq_nil_iff, List.filterMap_reverse,
        List.reverse_eq_nil_iff] at never
      rw [TcpFlow.lastRead, never.1]
      rfl
    obtain ⟨-, blocked | ⟨-, -, unheard⟩⟩ :=
      ((tcp _ t run').1 (by simp [finished])).reads may room
    · rw [TcpFlow.lastRead_append, unread, run.attended.unread (by rw [opening]; rfl)] at blocked
      cases blocked
    · exact ⟨journal, s, t, run, opening, performed, steps, unheard, (told unread).2⟩
  · obtain ⟨journal, s, run, result⟩ := UdpFlow.exists_run_of_enacts
      (p := fun _ s => s.self.pending && !s.self.closed && !s.self.ring.isEmpty &&
        Act.endsAs UdpFlow.Operation.pull.perform s fun t => !t.self.closed && !t.self.pending)
      (show UdpFlow.enacts (UdpFlow.devicePacket [1, 2]) { datagramCapacity := 16 }
        { sockets := [(0, { transfers := [.failure .wouldBlock], arrivals := [.data [7]] })] }
        [(⟨some 0⟩, .ready { readable := true }), (⟨some 1⟩, .ofDevice [1, 2])] _ = true by
        decide +kernel)
    simp only [Bool.and_eq_true, Bool.not_eq_true'] at result
    obtain ⟨⟨⟨pending, isOpen⟩, waiting⟩, result⟩ := result
    have blocked := (((udp journal s run).1 isOpen).writes waiting).1
    obtain ⟨t, performed, result⟩ := Act.exists_of_endsAs result
    rw [Bool.and_eq_true, Bool.not_eq_true', Bool.not_eq_true'] at result
    obtain ⟨isOpen', idle⟩ := result
    obtain ⟨steps, course, -, -, reads⟩ := (udp journal s run).2 _ t performed pending
    have cleared : ∃ step ∈ steps, step.after.pending = false :=
      course.path.exists_cleared pending idle
    refine ⟨journal, s, t, run, pending, blocked, performed, steps, ?_⟩
    simpa [isOpen', idle] using reads cleared

end TunnelRelay.Flow
