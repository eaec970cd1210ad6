import TunnelRelay.Ring.Cells

/-!
# Datagram ring

A bounded queue of datagrams. Every datagram is stored in one piece behind its length: a record that
starts in the circular part of the row may run on into the headroom behind it, which is large enough
for any datagram, and the next record then starts at the front.
-/

namespace TunnelRelay

/-- The bytes in front of a stored datagram that hold its length. -/
def recordHeader : Nat := 2

/-- The longest datagram: its length has 16 bits. -/
def maxDatagramLength : Nat := 0xffff

/-- A bounded queue of datagrams: the next record is written at `head` and the oldest one starts at
`tail`. -/
structure DatagramRing where
  cells : Cells
  /-- The length of the circular part. -/
  circular : Nat
  head : Nat
  tail : Nat
  count : Nat

namespace DatagramRing

def ofCapacity (capacity : Nat) : Checked DatagramRing := do
  let cells ← Cells.zeroed (capacity + 1 + recordHeader + maxDatagramLength)
  return ⟨cells, capacity + 1, 0, 0, 0⟩

def isEmpty (r : DatagramRing) : Bool := r.count == 0

/-- Whether the free room lies between `head` and `tail`, because writing has started at the front
again. -/
def isWrapped (r : DatagramRing) : Bool := 0 < r.count && r.head ≤ r.tail

/-- Whether a datagram of the given length can be stored. -/
def hasRoomFor (r : DatagramRing) (length : Nat) : Bool :=
  length ≤ maxDatagramLength && (!r.isWrapped || r.head + recordHeader + length ≤ r.tail)

/-- Where the next record starts after one that ends before `stop`. -/
def wrap (r : DatagramRing) (stop : Nat) : Nat := if r.circular ≤ stop then 0 else stop

/-- Stores a datagram as a whole, or leaves the ring as it is. -/
def push (r : DatagramRing) (datagram : Bytes) : Checked (Bool × DatagramRing) :=
  if r.hasRoomFor datagram.length then do
    let start := r.head + recordHeader
    let cells ← r.cells.write r.head (bytesOf16 (← narrow16 datagram.length))
    let cells ← cells.write start datagram
    return (true, { r with cells, head := r.wrap (start + datagram.length), count := r.count + 1 })
  else .ok (false, r)

def frontLength (r : DatagramRing) : Checked Nat := do
  return (word16At (← r.cells.read r.tail (r.tail + recordHeader)) 0).toNat

/-- The oldest datagram, if there is one. -/
def front (r : DatagramRing) : Checked (Option Bytes) :=
  if r.isEmpty then .ok none
  else do
    let start := r.tail + recordHeader
    some <$> r.cells.read start (start + (← r.frontLength))

/-- Removes the oldest datagram. A ring that becomes empty starts over at the front. -/
def pop (r : DatagramRing) : Checked DatagramRing :=
  if r.isEmpty then .ok r
  else do
    let stop := r.tail + recordHeader + (← r.frontLength)
    return if r.count = 1 then { r with head := 0, tail := 0, count := 0 }
      else { r with tail := r.wrap stop, count := r.count - 1 }

/-- The next `n` datagrams from the record at `start` on. -/
def recordsFrom (r : DatagramRing) : Nat → Nat → List Bytes
  | 0, _ => []
  | n + 1, start =>
    let length := (word16 (r.cells.get start) (r.cells.get (start + 1))).toNat
    let first := start + recordHeader
    (List.range' first length).map r.cells.get :: r.recordsFrom n (r.wrap (first + length))

/-- The content, oldest datagram first. -/
def toList (r : DatagramRing) : List Bytes := r.recordsFrom r.count r.tail

end DatagramRing

end TunnelRelay
