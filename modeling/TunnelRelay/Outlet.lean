import TunnelRelay.Scene

/-!
# The way out to the device

A flow hands its packets to an outlet, which takes a packet as a whole or not at all. A flow that was
refused can ask to be told when there is room again.
-/

namespace TunnelRelay

class Outlet (σ : Type) where
  /-- Takes a packet, or refuses it and stays as it is. -/
  offer : Bytes → σ → Checked (Bool × σ)
  /-- Notes that a flow waits for room. -/
  await : FlowKey → σ → σ

namespace Act

variable {α σ : Type} [Outlet σ]

/-- Offers a packet to the device and says whether it was taken. -/
def offer (packet : Bytes) : Act α σ Bool := do
  let (taken, out) ← Outlet.offer packet (← get).out
  modify fun s => { s with out }
  tell (Host.record (.offer packet taken))
  return taken

/-- Asks to be told when there is room again. -/
def await (key : FlowKey) : Act α σ Unit := do
  modify fun s => { s with out := Outlet.await key s.out }
  tell (Host.record (.await key))

end Act

/-- An outlet that takes a limited number of packets, or any number if there is no limit. -/
structure Credit where
  room : Option Nat
  deriving DecidableEq, Repr

instance : Outlet Credit where
  offer _ credit :=
    match credit.room with
    | none => .ok (true, credit)
    | some 0 => .ok (false, credit)
    | some (n + 1) => .ok (true, ⟨some n⟩)
  await _ credit := credit

end TunnelRelay
