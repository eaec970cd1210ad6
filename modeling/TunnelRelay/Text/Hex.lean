import TunnelRelay.Bytes

/-!
# Hexadecimal text

Bytes as hexadecimal digits, and the dump that the log shows of a packet nobody can route.
-/

namespace TunnelRelay.Text

def hexDigit (n : Nat) : Char := "0123456789abcdef".toList.getD n '0'

def hexByte (b : UInt8) : String := .ofList [hexDigit (b.toNat / 16), hexDigit (b.toNat % 16)]

private def lowDigits : Nat → Nat → List Char
  | 0, _ => []
  | width + 1, n => lowDigits width (n / 16) ++ [hexDigit (n % 16)]

private def digitCount : Nat → Nat → Nat
  | 0, _ => 1
  | fuel + 1, n => if n < 16 then 1 else digitCount fuel (n / 16) + 1

/-- A number in at least four digits. -/
def hexOffset (n : Nat) : String := .ofList (lowDigits (max 4 (digitCount n n)) n)

def isVisible (b : UInt8) : Bool := 0x21 ≤ b && b ≤ 0x7e

-- The byte in column `i` of a dump line, blank behind the last byte, with a gap before column 8.
private def column (chunk : Bytes) (i : Nat) : String :=
  (if i = 8 then " " else "") ++
    match chunk[i]? with
    | some b => " " ++ hexByte b
    | none => "   "

/-- One line of a dump: offset, sixteen columns, and the visible characters. -/
def dumpLine (offset : Nat) (chunk : Bytes) : String :=
  "\n" ++ hexOffset offset ++ ": " ++ String.join ((List.range 16).map (column chunk)) ++ "  " ++
    .ofList (chunk.map fun b => if isVisible b then Char.ofNat b.toNat else '.')

private def dumpLines : Nat → Nat → Bytes → List String
  | 0, _, _ => []
  | _ + 1, _, [] => []
  | lines + 1, offset, b :: rest =>
    dumpLine offset ((b :: rest).take 16) :: dumpLines lines (offset + 16) ((b :: rest).drop 16)

/-- The dump of a byte string, every line on its own and the first one too. -/
def hexDump (bytes : Bytes) : String := String.join (dumpLines bytes.length 0 bytes)

end TunnelRelay.Text
