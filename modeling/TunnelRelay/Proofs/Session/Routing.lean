import TunnelRelay.Proofs.Act
import TunnelRelay.Proofs.Framing
import TunnelRelay.Session

/-!
# Routing what has arrived

Draining the tunnel's bytes is a loop whose bound is never reached: it hands the whole packets at
their front to the flows, one after the other, and stops where no whole packet follows.
-/

namespace TunnelRelay

open Act

/-- What is said of bytes that no packet can be taken from. -/
def Prospect.verdict : Prospect → Except Failure Unit
  | corrupt declared => .error (.corruptStream declared)
  | _ => .ok ()

namespace Session

/-- Hands one packet to its flow and takes it out. -/
def route (packet : Bytes) : Act Session Unit Unit := do
  withTable (FlowTable.send (← Packet.ofBytes packet))
  modifySelf fun s => { s with framing := s.framing.drop packet.length }

def routeAll : List Bytes → Act Session Unit Unit
  | [] => return ()
  | packet :: rest => do
    route packet
    routeAll rest

variable {s t : Scene Session Unit}

theorem framing_of_withTable {β : Type} {act : Act FlowTable Outbox β} {b : β}
    (h : withTable act s = .ok (b, t)) : t.self.framing = s.self.framing := by
  simp only [withTable, checked_bind_eq_ok] at h
  obtain ⟨_, -, h⟩ := h
  cases h
  rfl

theorem withFraming_eq {β : Type} {act : Act Framing Unit β} {b : β} {t : Scene Framing Unit}
    (h : act { s with self := s.self.framing } = .ok (b, t)) :
    withFraming act s = .ok (b, { t with self := { s.self with framing := t.self } }) := by
  simp only [withFraming, on, runOn, bind_apply, self_apply, ok_bind, h]
  rfl

variable {packet rest : Bytes} {packets : List Bytes}

private theorem routeRound_eq (sound : s.self.framing.Sound) (whole : Whole packet)
    (held : s.self.framing.held = packet ++ rest) :
    routeRound () s = route packet s >>= fun r => .ok (.again (), r.2) := by
  have seen : Prospect.of s.self.framing.held = .packet packet.length :=
    held ▸ whole.of_append rest
  have front : s.self.framing.held.take packet.length = packet := by
    rw [held, List.take_left]
  have sound' : ({ s with self := s.self.framing } : Scene Framing Unit).self.Sound := sound
  obtain ⟨p, parsed, -, found⟩ := Framing.next_eq_packet sound' seen
  have found' := withFraming_eq found
  rw [front] at parsed
  simp only [routeRound, route, bind_apply, liftM_apply, found', parsed, ok_bind]
  cases sent : withTable (FlowTable.send p) s with
  | error fault => rfl
  | ok r =>
    obtain ⟨⟨⟩, t⟩ := r
    have same : t.self.framing = s.self.framing := framing_of_withTable sent
    have consumed : Framing.consume { t with self := t.self.framing } = .ok ((), _) :=
      Framing.consume_eq (same ▸ sound : t.self.framing.Sound) (same ▸ seen)
    simp only [ok_bind, withFraming_eq consumed]
    rfl

theorem held_of_route (sound : s.self.framing.Sound) (held : s.self.framing.held = packet ++ rest)
    (routed : route packet s = .ok ((), t)) :
    t.self.framing.Sound ∧ t.self.framing.held = rest := by
  simp only [route, bind_apply, liftM_apply, checked_bind_eq_ok] at routed
  obtain ⟨_, ⟨p, -, ⟨⟩⟩, ⟨_, u⟩, sent, same⟩ := routed
  have framing : u.self.framing = s.self.framing := framing_of_withTable sent
  cases same
  have fits : packet.length ≤ s.self.framing.held.length := by simp [held]
  obtain ⟨sound', held'⟩ := sound.drop fits
  rw [held, List.drop_left] at held'
  rw [← framing] at sound' held'
  exact ⟨sound', held'⟩

private theorem routeRound_eq_done (sound : s.self.framing.Sound)
    (unfinished : ∀ n, Prospect.of s.self.framing.held ≠ .packet n) :
    ∃ host, s.host.After [] host ∧ routeRound () s =
      .ok (.done (Prospect.of s.self.framing.held).verdict, { s with host }) := by
  have sound' : ({ s with self := s.self.framing } : Scene Framing Unit).self.Sound := sound
  obtain ⟨host, called, found⟩ := Framing.next_eq_none sound' unfinished
  refine ⟨host, called, ?_⟩
  have found' := withFraming_eq found
  simp only [routeRound, bind_apply, found', ok_bind]
  cases hp : Prospect.of s.self.framing.held with
  | packet n => exact absurd hp (unfinished n)
  | unknown | incomplete | corrupt => rfl

private theorem iterate_routeRound (sound : s.self.framing.Sound) {held : Bytes}
    (same : s.self.framing.held = held) (splits : Splits held packets rest) {bound : Nat}
    (enough : held.length < bound) :
    (∃ fault, routeAll packets s = .error fault ∧ iterate bound routeRound () s = .error fault) ∨
      ∃ t host, routeAll packets s = .ok ((), t) ∧ t.host.After [] host ∧
        iterate bound routeRound () s = .ok ((Prospect.of rest).verdict, { t with host }) := by
  induction splits generalizing s bound with
  | rest unfinished =>
    subst same
    obtain ⟨bound, rfl⟩ : ∃ n, bound = n + 1 := ⟨bound - 1, by omega⟩
    obtain ⟨host, called, last⟩ := routeRound_eq_done sound unfinished
    refine .inr ⟨s, host, rfl, called, ?_⟩
    simp only [iterate, bind_apply, last, ok_bind]
    rfl
  | @packet packet bytes packets rest whole _ ih =>
    obtain ⟨bound, rfl⟩ : ∃ n, bound = n + 1 := ⟨bound - 1, by omega⟩
    have shorter : bytes.length < bound := by
      have := whole.complete
      have : ipv4MinHeader = 20 := rfl
      rw [List.length_append] at enough
      omega
    have round := routeRound_eq sound whole same
    simp only [routeAll, iterate, bind_apply, round]
    cases routed : route packet s with
    | error fault => exact .inl ⟨fault, rfl, rfl⟩
    | ok r =>
      obtain ⟨⟨⟩, t⟩ := r
      obtain ⟨sound', held'⟩ := held_of_route sound same routed
      exact ih sound' held' shorter

theorem held_of_routeAll (sound : s.self.framing.Sound)
    (splits : Splits s.self.framing.held packets rest) (routed : routeAll packets s = .ok ((), t)) :
    t.self.framing.held = rest := by
  generalize same : s.self.framing.held = held at splits
  induction splits generalizing s with
  | rest _ =>
    cases routed
    exact same
  | packet _ _ ih =>
    rw [routeAll, bind_apply, checked_bind_eq_ok] at routed
    obtain ⟨⟨⟨⟩, u⟩, first, others⟩ := routed
    obtain ⟨sound', held'⟩ := held_of_route sound same first
    exact ih sound' others held'

/-- Draining stops by itself where no whole packet follows, and earlier only where the routing of a
packet stops. -/
theorem routePackets_eq (sound : s.self.framing.Sound)
    (splits : Splits s.self.framing.held packets rest) :
    (∃ fault, routeAll packets s = .error fault ∧ routePackets s = .error fault) ∨
      ∃ t host, routeAll packets s = .ok ((), t) ∧ t.host.After [] host ∧
        routePackets s = .ok ((Prospect.of rest).verdict, { t with host }) := by
  simp only [routePackets, bind_apply, self_apply, ok_bind]
  refine iterate_routeRound sound rfl splits ?_
  rw [Framing.length_held]
  exact Nat.lt_succ_self _

end Session

end TunnelRelay
