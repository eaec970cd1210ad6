import TunnelRelay.Outbox
import TunnelRelay.Proofs.Ring.Stream
import TunnelRelay.Proofs.SocketCalls

/-!
# Outboxes only grow

While flows act, an outbox takes packets and flows that wait, and gives nothing back. A packet that is
taken comes last as a whole, and one that is refused leaves nothing behind. A flow waits at most once.
-/

namespace TunnelRelay

namespace Event

def posted? : Event → Option Bytes
  | offer packet true => some packet
  | _ => none

/-- The packets that were taken on the way out, first ones first. -/
def posted (calls : List Event) : List Bytes := calls.filterMap posted?

@[simp]
theorem posted_append (first second : List Event) :
    posted (first ++ second) = posted first ++ posted second := List.filterMap_append

end Event

namespace Registration

variable {r r' : Registration} {socket : SocketId} {call : Option Event}

theorem posted_pollerCall (wanted : Option Interest) (outcome : Outcome) :
    Event.posted [r.pollerCall socket wanted outcome] = [] := by
  unfold pollerCall
  split <;> rfl

theorem Cancels.posted_eq_nil (h : r.Cancels socket r' call) : Event.posted call.toList = [] := by
  cases h <;> rfl

end Registration

namespace Outbox

variable {out out' out'' : Outbox} {packet : Bytes} {taken : Bool} {key : FlowKey}
  {calls calls' first second : List Event}

/-- The outbox `out'` is what `out` may become by the offers and requests among the calls. -/
structure Grows (out : Outbox) (calls : List Event) (out' : Outbox) : Prop where
  waiting_subset : out.waiting ⊆ out'.waiting
  nodup : out.waiting.Nodup → out'.waiting.Nodup
  capacity_eq : out'.ring.capacity = out.ring.capacity
  sound : out.ring.Sound → out'.ring.Sound
  toList_eq : out.ring.Sound →
    out'.ring.toList = out.ring.toList ++ (Event.posted calls).flatten

theorem Grows.of_silent (silent : Event.posted calls = []) : out.Grows calls out :=
  ⟨List.Subset.refl _, id, rfl, id, fun _ => by simp [silent]⟩

theorem Grows.congr (h : out.Grows calls out') (same : Event.posted calls' = Event.posted calls) :
    out.Grows calls' out' :=
  ⟨h.waiting_subset, h.nodup, h.capacity_eq, h.sound, same ▸ h.toList_eq⟩

theorem Grows.trans (h : out.Grows first out') (h' : out'.Grows second out'') :
    out.Grows (first ++ second) out'' where
  waiting_subset := List.Subset.trans h.waiting_subset h'.waiting_subset
  nodup nodup := h'.nodup (h.nodup nodup)
  capacity_eq := h'.capacity_eq.trans h.capacity_eq
  sound sound := h'.sound (h.sound sound)
  toList_eq sound := by
    rw [h'.toList_eq (h.sound sound), h.toList_eq sound, Event.posted_append, List.flatten_append,
      List.append_assoc]

theorem eq_of_refused (h : Outlet.offer packet out = .ok (false, out')) : out' = out := by
  simp only [Outlet.offer] at h
  split at h
  · cases h
    rfl
  · cases hp : out.ring.push packet with
    | error fault =>
      rw [hp] at h
      cases h
    | ok pushed =>
      rw [hp] at h
      cases h

theorem grows_of_offer (h : Outlet.offer packet out = .ok (taken, out')) :
    out.Grows [.offer packet taken] out' := by
  cases taken with
  | false =>
    obtain rfl := eq_of_refused h
    exact .of_silent rfl
  | true =>
    simp only [Outlet.offer] at h
    split at h
    · cases h
    next fits =>
    cases hp : out.ring.push packet with
    | error fault =>
      rw [hp] at h
      cases h
    | ok pushed =>
      obtain ⟨n, ring⟩ := pushed
      rw [hp] at h
      cases h
      have all : n = packet.length := by
        have := StreamRing.taken_of_push hp
        omega
      refine ⟨List.Subset.refl _, id, StreamRing.capacity_push hp, fun sound => sound.push hp, ?_⟩
      intro sound
      simp [StreamRing.toList_push sound hp, all, Event.posted, Event.posted?]

theorem mem_waiting_await (key : FlowKey) (out : Outbox) :
    key ∈ (Outlet.await key out).waiting := by
  simp only [Outlet.await]
  split
  · next h => exact h
  · simp

theorem grows_await (key : FlowKey) (out : Outbox) :
    out.Grows [.await key] (Outlet.await key out) := by
  simp only [Outlet.await]
  split
  · exact .of_silent rfl
  · next absent =>
    have nodup (nodup : out.waiting.Nodup) : (out.waiting ++ [key]).Nodup := by
      refine List.nodup_append.2 ⟨nodup, List.pairwise_singleton _ _, ?_⟩
      rintro a mem b hb rfl
      exact absent (List.mem_singleton.1 hb ▸ mem)
    exact ⟨List.subset_append_left _ _, nodup, rfl, id, fun _ => by simp [Event.posted, Event.posted?]⟩

end Outbox

end TunnelRelay
