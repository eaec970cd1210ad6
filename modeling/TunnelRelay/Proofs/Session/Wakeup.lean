import TunnelRelay.Proofs.Session.Stalled

/-!
# No wakeup is lost

Between events a flow that holds a packet back waits for room, room is short where a flow waits, and
what the outbox holds goes on when the tunnel is ready, which the poller has been asked to report.
-/

namespace TunnelRelay

namespace Session

variable {s : Scene Session Unit}

/-- Whenever an open session rests, every flow that holds a packet back is among those that wait, and
each of them waits once; the outbox has no room for some packet then; and as long as it holds
anything, the tunnel has refused the last write and the poller watches for its being writable. -/
theorem Run.no_lost_wakeup (run : Run s) (isOpen : s.self.closed = false) :
    (∀ f ∈ s.self.table.flows, f.pending = true → f.key ∈ s.self.outbox.waiting) ∧
      s.self.outbox.waiting.Nodup ∧
      (s.self.outbox.waiting ≠ [] → s.self.outbox.ring.remaining < maxPacketLength ∧
        s.self.outbox.ring.isEmpty = false) ∧
      (s.self.outbox.ring.isEmpty = false →
        s.host.lastWrite s.self.socket = some (.error .wouldBlock) ∧
          s.self.registration.interest = some .both ∧
          s.host.polled s.self.socket = some .both) := by
  have rest := run.rests.resolve_left (by simp [isOpen])
  have intact := rest.intact
  refine ⟨intact.sound.waits, intact.nodup, fun waits => ?_, fun nonempty => ?_⟩
  · exact ⟨rest.full waits, intact.isEmpty_of_short (rest.full waits)⟩
  · have both := rest.interest_eq_both nonempty
    refine ⟨rest.flushed.resolve_left ?_, both, intact.polled.trans both⟩
    simp [nonempty]

theorem no_lost_wakeup_stalled : ∃ (s : Scene Session Unit) (f : UdpFlow), Run s ∧
    s.self.closed = false ∧ s.self.table.flows = [.udp f] ∧ f.pending = true ∧
    f.key ∈ s.self.outbox.waiting ∧ s.self.outbox.waiting.Nodup ∧
    s.self.outbox.ring.remaining < maxPacketLength ∧
    s.host.lastWrite s.self.socket = some (.error .wouldBlock) ∧
    s.host.polled s.self.socket = some .both := by
  obtain ⟨s, f, run, isOpen, alone, pending, waiting⟩ := exists_run_held
  obtain ⟨waits, nodup, short, watched⟩ := run.no_lost_wakeup isOpen
  obtain ⟨room, nonempty⟩ := short (by simp [waiting])
  obtain ⟨refused, -, polled⟩ := watched nonempty
  have waits' : f.key ∈ s.self.outbox.waiting :=
    waits (.udp f) (by rw [alone]; exact List.mem_singleton_self _) pending
  exact ⟨s, f, run, isOpen, alone, pending, waits', nodup, room, refused, polled⟩

end Session

end TunnelRelay
