import TunnelRelay.Proofs.Flow.Tcp.Moves

/-!
# Small actions of a TCP flow

What the actions that every reaction is made of lead to: a packet without payload, another phase, the
end of the flow.
-/

namespace TunnelRelay

open Act

namespace TcpFlow

variable {σ : Type} {s : Scene TcpFlow σ} {Q : Unit → Scene TcpFlow σ → Prop}

@[simp]
theorem ensures_say (notice : FlowNotice) :
    Ensures (say notice) s Q ↔
      Q () { s with host := s.host.record (.notice (.flow s.self.key notice)) } := by
  simp [say]

theorem ensures_setPhase {phase : Phase}
    (h : ∀ host, s.host.After [] host → Q () { s with self := { s.self with phase }, host }) :
    Ensures (setPhase phase) s Q := by
  simp only [setPhase, ensures_bind, ensures_self, ensures_say, ensures_modifySelf]
  exact h _ ((Host.After.refl _).note _)

theorem ensures_close (isOpen : s.self.phase ≠ .closed)
    (h : ∀ registration call host, s.self.Cancels registration call →
      s.host.After call.toList host →
      Q () ⟨{ s.self with phase := .closed, registration },
        s.registry.erase s.self.registration.token, s.out, host⟩) :
    Ensures close s Q := by
  unfold close
  simp only [ensures_bind, ensures_self]
  rw [if_neg (by simpa [isClosed] using isOpen)]
  simp only [ensures_bind]
  apply ensures_setPhase
  intro host hh
  apply Registration.ensures_cancel
  · intro host' unknown hh'
    exact (ensures_modifySelf _).2 (h _ _ _ (.unknown unknown) (hh.trans hh'))
  · intro outcome host' known hh'
    exact (ensures_modifySelf _).2 (h _ _ _ (.known known outcome) (hh.trans hh'))

theorem ensures_close_of_closed (closed : s.self.phase = .closed) (h : Q () s) :
    Ensures close s Q := by
  simpa [close, isClosed, closed] using h

@[simp]
theorem ensures_prepareHeader (flags : TcpFlags) :
    Ensures (prepareHeader flags) s Q ↔ Q () { s with self := s.self.prepared flags } := by
  have fits : narrow16 s.self.windowToGrant = .ok s.self.windowToGrant.toUInt16 :=
    narrow16_eq_ok (by unfold windowToGrant; omega)
  simp [prepareHeader, fits, prepared]

variable [Outlet σ]

theorem ensures_sendControl {flags : TcpFlags}
    (h : ∀ sent g out host, Emits flags s.self s.out sent g out →
      s.host.After [sent.call] host → Q () { s with self := g, out, host }) :
    Ensures (sendControl flags) s Q := by
  simp only [sendControl, ensures_bind, ensures_prepareHeader, ensures_self, ensures_liftM,
    ensures_modifySelf, ensures_say, ensures_offer]
  rintro ⟨packet, reply⟩ built text _ taken out offered
  have called := ((Host.After.refl s.host).note (.flow s.self.key (.sending text))).record
    (show (Event.offer packet.bytes taken).isCall = true from rfl)
  split
  · exact (ensures_pure _).2 (h ⟨packet, taken⟩ _ _ _ ⟨⟨reply, built, rfl⟩, offered⟩ called)
  · exact (ensures_say _).2
      (h ⟨packet, taken⟩ _ _ _ ⟨⟨reply, built, rfl⟩, offered⟩ (called.note _))

theorem ensures_sendFin {next : Phase}
    (h : ∀ sent g out host, Emits (.fin ∪ .ack) s.self s.out sent g out →
      s.host.After [sent.call] host →
      Q () { s with self := { g with sequence := g.sequence + 1, phase := next }, out, host }) :
    Ensures (sendFin next) s Q := by
  simp only [sendFin, ensures_bind]
  apply ensures_sendControl
  intro sent g out host emits called
  rw [ensures_modifySelf]
  apply ensures_setPhase
  intro host' called'
  refine h sent g out host' emits ?_
  simpa using called.trans called'

theorem ensures_reset (isOpen : s.self.phase ≠ .closed)
    (h : ∀ sent g out registration call host,
      Emits (if s.self.phase = .synSent then .rst ∪ .ack else .rst) s.self s.out sent g out →
      g.Cancels registration call → s.host.After (sent.call :: call.toList) host →
      Q () ⟨{ g with phase := .closed, registration }, s.registry.erase g.registration.token, out,
        host⟩) :
    Ensures reset s Q := by
  simp only [reset, ensures_bind, ensures_self]
  rw [if_neg (by simpa [isClosed] using isOpen)]
  simp only [ensures_bind, ensures_say]
  apply ensures_sendControl
  intro sent g out host emits called
  refine ensures_close ?_ ?_
  · rw [emits.same.phase_eq]
    exact isOpen
  intro registration call host' cancels called'
  refine h sent _ out registration call host' emits cancels ?_
  exact ((Host.After.refl s.host).note _).trans (called.trans called')

end TcpFlow

end TunnelRelay
