import TunnelRelay.Proofs.Outbox
import TunnelRelay.Proofs.Spending

/-!
# A budget for the flows that wait

A flow that waits is asked to go on once there is room for it. It may come to wait again, but only
after it has read something, so that the flows that wait and what there is to read are a budget that
is never exceeded.
-/

namespace TunnelRelay

open Act

variable {α β : Type} {Fit : α → Prop} {s t u : Scene α Outbox}

/-- How often flows can be asked to go on, at the most. -/
def Scene.budget (s : Scene α Outbox) : Nat := s.out.waiting.length + s.host.unread

/-- The component is fit, and so is the ring of the outbox. -/
structure Ready (Fit : α → Prop) (s : Scene α Outbox) : Prop where
  fit : Fit s.self
  sound : s.out.ring.Sound

/-- The component is fit after it has acted within the budget. -/
structure Works (Fit : α → Prop) (s t : Scene α Outbox) : Prop extends Ready Fit t where
  spends : s.host.Spends t.host
  budget_le : t.budget ≤ s.budget

namespace Works

theorem refl (ready : Ready Fit s) : Works Fit s s := ⟨ready, .refl _, Nat.le_refl _⟩

theorem trans (h : Works Fit s t) (h' : Works Fit t u) : Works Fit s u :=
  ⟨h'.toReady, h.spends.trans h'.spends, Nat.le_trans h'.budget_le h.budget_le⟩

/-- Calls that leave the outbox alone are within the budget. -/
theorem call {a : α} {registry : Registry} {host : Host} (h : Works Fit s t) (fit : Fit a)
    (spends : t.host.Spends host) : Works Fit s ⟨a, registry, t.out, host⟩ :=
  ⟨⟨fit, h.sound⟩, h.spends.trans spends,
    Nat.le_trans (Nat.add_le_add_left spends.unread_le _) h.budget_le⟩

theorem become {a : α} (h : Works Fit s t) (fit : Fit a) : Works Fit s { t with self := a } :=
  h.call fit (.refl _)

theorem record {event : Event} (h : Works Fit s t) :
    Works Fit s { t with host := t.host.record event } := h.call h.fit (Host.spends_record _ _)

end Works

namespace Outbox

variable {out : Outbox} {packet : Bytes}

theorem offer_isOk (sound : out.ring.Sound) (packet : Bytes) :
    ∃ taken out', Outlet.offer packet out = .ok (taken, out') ∧ out'.ring.Sound ∧
      out'.waiting = out.waiting ∧ (packet.length ≤ out.ring.remaining → taken = true) := by
  simp only [Outlet.offer]
  split
  · exact ⟨false, out, rfl, sound, rfl, fun fits => by omega⟩
  · obtain ⟨ring, pushed⟩ := sound.push_isOk packet
    rw [pushed]
    exact ⟨true, _, rfl, sound.push pushed, rfl, fun _ => rfl⟩

theorem length_waiting_await (key : FlowKey) (out : Outbox) :
    (Outlet.await key out).waiting.length ≤ out.waiting.length + 1 := by
  simp only [Outlet.await]
  split
  · exact Nat.le_succ _
  · simp

theorem ring_await (key : FlowKey) (out : Outbox) : (Outlet.await key out).ring = out.ring := by
  simp only [Outlet.await]
  split <;> rfl

end Outbox

/-- A write of the front of a ring that takes something leaves less in the ring. -/
theorem StreamRing.length_drop_written {r : StreamRing} {front taken : Bytes} {h : Host}
    {id : SocketId} (sound : r.Sound) (nonempty : r.isEmpty = false) (offered : r.front = .ok front)
    (written : (h.write id front).1 = .ok taken) (some : taken ≠ []) :
    (r.drop taken.length).length < r.length := by
  have short := (StreamRing.front_eq sound nonempty offered).2.2
  have taken_le : taken.length ≤ front.length := by
    rw [Host.write_prefix written, List.length_take]
    exact Nat.min_le_right _ _
  rw [length_drop sound (Nat.le_trans taken_le short)]
  have : 0 < taken.length := List.length_pos_iff.2 some
  omega

theorem achieves_offer {packet : Bytes} (works : Works Fit s t) :
    Achieves (offer packet) t fun taken u => Works Fit s u ∧ u.self = t.self ∧
      (packet.length ≤ t.out.ring.remaining → taken = true) := by
  obtain ⟨taken, out, offered, sound, waiting, fits⟩ := Outbox.offer_isOk works.sound packet
  simp only [offer, achieves_bind, achieves_get, achieves_liftM, achieves_modify, achieves_tell,
    achieves_pure]
  refine ⟨_, offered, works.trans ⟨⟨works.fit, sound⟩, Host.spends_record _ _, ?_⟩, trivial, fits⟩
  exact Nat.le_of_eq (congrArg (·.length + t.host.unread) waiting)

/-- A flow comes to wait if there is one in the budget to spare for it. -/
theorem achieves_await {key : FlowKey} (works : Works Fit s t) (spare : t.budget < s.budget) :
    Achieves (await key) t fun _ u => Works Fit s u ∧ u.self = t.self ∧ t.host.Spends u.host := by
  simp only [await, achieves_bind, achieves_modify, achieves_tell]
  refine ⟨⟨⟨works.fit, ?_⟩, works.spends.trans (Host.spends_record _ _), ?_⟩, trivial,
    Host.spends_record _ _⟩
  · rw [Outbox.ring_await]
    exact works.sound
  · have := Outbox.length_waiting_await key t.out
    simp only [Scene.budget, Host.unread, Host.record] at spare ⊢
    omega

end TunnelRelay
