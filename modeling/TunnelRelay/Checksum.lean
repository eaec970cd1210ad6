import TunnelRelay.Bytes

/-!
# Internet checksum

The one's-complement sum of 16-bit words that protects IPv4 headers and TCP segments. A 32-bit
accumulator gathers the words and is folded to 16 bits once, at the end.
-/

namespace TunnelRelay.Checksum

/-- Adds to the accumulator, which must not leave 32 bits. -/
def add (sum word : UInt32) : Checked UInt32 :=
  if sum.toNat + word.toNat < 0x100000000 then .ok (sum + word) else .error .overflow

/-- Adds the words of `bytes`; a last single byte is the high byte of a word. -/
def sumWords (sum : UInt32) : Bytes → Checked UInt32
  | [] => .ok sum
  | [last] => add sum (word16 last 0).toUInt32
  | hi :: lo :: rest => do sumWords (← add sum (word16 hi lo).toUInt32) rest

/-- One end-around carry: the high half added onto the low half. -/
def fold (sum : UInt32) : UInt32 := (sum &&& (0xffff : UInt32)) + (sum >>> (16 : UInt32))

/-- The complement of the folded sum: after two carries the high half is always empty. -/
def finish (sum : UInt32) : UInt16 := ~~~(fold (fold sum)).toUInt16

/-- The checksum of an IPv4 header, whose own checksum field counts as zero. -/
def ofIpv4Header (header : Bytes) : Checked UInt16 := do
  let before ← slice header 0 10
  let after ← slice header 12 header.length
  return finish (← sumWords (← sumWords 0 before) after)

/-- The sum of the pseudo-header that a TCP checksum covers beside the segment itself. -/
def pseudoHeader (source destination : UInt32) (protocol : UInt8) (length : UInt16) : UInt32 :=
  (source >>> (16 : UInt32)) + (source &&& (0xffff : UInt32)) +
    (destination >>> (16 : UInt32)) + (destination &&& (0xffff : UInt32)) +
    protocol.toUInt32 + length.toUInt32

end TunnelRelay.Checksum
