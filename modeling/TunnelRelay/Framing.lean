import TunnelRelay.Ring.Cells
import TunnelRelay.Scene

/-!
# Framing

The tunnel is a byte stream in which packets follow each other without any mark between them: where
one ends follows from the length that its own header declares. The bytes that have arrived but make
no whole packet yet are held back, never more than one packet's worth.
-/

namespace TunnelRelay

/-- The bytes of the tunnel that have not been handed on. They lie in a row of cells as long as the
longest packet, from `start` up to but not including `stop`. -/
structure Framing where
  cells : Cells := .blank maxPacketLength
  start : Nat := 0
  stop : Nat := 0

/-- What the held bytes start with. -/
inductive Prospect where
  /-- Too few bytes to know the length of the packet. -/
  | unknown
  /-- A packet of the given length, not all of which has arrived. -/
  | incomplete (length : Nat)
  /-- A whole packet of the given length. -/
  | packet (length : Nat)
  /-- No packet: the declared length is less than a header takes. -/
  | corrupt (length : Nat)
  deriving DecidableEq, Repr

/-- What a byte string starts with. -/
def Prospect.of (bytes : Bytes) : Prospect :=
  match declaredLength? bytes with
  | none => .unknown
  | some declared =>
    if declared.toNat < ipv4MinHeader then .corrupt declared.toNat
    else if bytes.length < declared.toNat then .incomplete declared.toNat
    else .packet declared.toNat

namespace Framing

def length (f : Framing) : Nat := f.stop - f.start

def isEmpty (f : Framing) : Bool := f.length == 0

def held (f : Framing) : Bytes := (List.range' f.start f.length).map f.cells.get

/-- Moves the held bytes to the front of the row, so that all free cells lie behind them. -/
def compact (f : Framing) : Framing :=
  if f.start = 0 then f else ⟨f.cells.fill 0 f.held, 0, f.length⟩

/-- The number of bytes that can be read. All whole packets are taken out before the next read, so
that there is always room. -/
def room (f : Framing) : Checked Nat := do
  let f := f.compact
  require (f.stop < f.cells.size) .assertion
  return f.cells.size - f.stop

def append (f : Framing) (bytes : Bytes) : Framing :=
  let f := f.compact
  { f with cells := f.cells.fill f.stop bytes, stop := f.stop + bytes.length }

def prospect (f : Framing) : Checked Prospect := do
  return .of (← f.cells.read f.start f.stop)

variable {σ : Type}

/-- Looks at the held bytes, and notes a packet that is not complete. -/
def look : Act Framing σ Prospect := do
  let f ← Act.self
  let prospect ← f.prospect
  if let .incomplete declared := prospect then
    Act.note (.incompletePacket f.length declared)
  return prospect

/-- The next whole packet, if there is one. It stays where it is. -/
def next : Act Framing σ (Except Failure (Option Packet)) := do
  match ← look with
  | .unknown | .incomplete _ => return .ok none
  | .corrupt declared => return .error (.corruptStream declared)
  | .packet length =>
    let f ← Act.self
    return .ok (some (← Packet.ofBytes (← f.cells.read f.start (f.start + length))))

/-- Takes the next whole packet out. A row that becomes empty starts over at the front. -/
def consume : Act Framing σ Unit := do
  if let .packet length ← look then
    Act.modifySelf fun f => { f with start := f.start + length }
  Act.modifySelf fun f => if f.start = f.stop then { f with start := 0, stop := 0 } else f

end Framing

end TunnelRelay
