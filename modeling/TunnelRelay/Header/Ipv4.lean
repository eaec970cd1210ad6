import TunnelRelay.Address
import TunnelRelay.Checksum
import TunnelRelay.Protocol

/-!
# IPv4 headers

A header is a byte string long enough for the fixed fields. Fields are read from their place in the
bytes and written back to it, so that everything else, options included, stays as it was.
-/

namespace TunnelRelay

/-- The total length that the first bytes of a packet declare, once they have arrived. -/
def declaredLength? (bytes : Bytes) : Option UInt16 :=
  if bytes.length < 4 then none else some (word16At bytes 2)

/-- The bytes of an IPv4 header, fixed fields first. -/
structure Ipv4Header where
  bytes : Bytes
  complete : ipv4MinHeader ≤ bytes.length

namespace Ipv4Header

/-- Views bytes as a header. It is a fault to view fewer than the fixed fields take. -/
def ofBytes (bytes : Bytes) : Checked Ipv4Header :=
  if h : ipv4MinHeader ≤ bytes.length then .ok ⟨bytes, h⟩ else .error .assertion

/-- Writes `new` at an offset inside the fixed fields. -/
def write (h : Ipv4Header) (offset : Nat) (new : Bytes)
    (fits : offset + new.length ≤ ipv4MinHeader) : Ipv4Header :=
  ⟨overlay h.bytes offset new, by
    rw [length_overlay (Nat.le_trans fits h.complete)]; exact h.complete⟩

def version (h : Ipv4Header) : UInt8 := h.bytes.getD 0 0 >>> 4

def headerLength (h : Ipv4Header) : Nat := (h.bytes.getD 0 0 &&& 0x0f).toNat * 4

def totalLength (h : Ipv4Header) : UInt16 := word16At h.bytes 2

def protocol (h : Ipv4Header) : UInt8 := h.bytes.getD 9 0

def checksum (h : Ipv4Header) : UInt16 := word16At h.bytes 10

def source (h : Ipv4Header) : UInt32 := word32At h.bytes 12

def destination (h : Ipv4Header) : UInt32 := word32At h.bytes 16

/-- Sets the declared header length, a multiple of four up to sixty; the version stays. -/
def setHeaderLength (h : Ipv4Header) (length : Nat) : Checked Ipv4Header :=
  if length % 4 = 0 ∧ length ≤ 60 then
    .ok (h.write 0 [(h.bytes.getD 0 0 &&& 0xf0) ||| (length / 4).toUInt8] (by simp [ipv4MinHeader]))
  else .error .assertion

def setTotalLength (h : Ipv4Header) (length : UInt16) : Ipv4Header :=
  h.write 2 (bytesOf16 length) (by simp [ipv4MinHeader])

def setSource (h : Ipv4Header) (address : UInt32) : Ipv4Header :=
  h.write 12 (bytesOf32 address) (by simp [ipv4MinHeader])

def setDestination (h : Ipv4Header) (address : UInt32) : Ipv4Header :=
  h.write 16 (bytesOf32 address) (by simp [ipv4MinHeader])

/-- Turns the direction of the packet around. -/
def swapAddresses (h : Ipv4Header) : Ipv4Header :=
  (h.setSource h.destination).setDestination h.source

/-- Writes the checksum of the declared header, all of which has to be present. -/
def updateChecksum (h : Ipv4Header) : Checked Ipv4Header := do
  let checksum ← Checksum.ofIpv4Header (← slice h.bytes 0 h.headerLength)
  return h.write 10 (bytesOf16 checksum) (by simp [ipv4MinHeader])

def describe (h : Ipv4Header) : String :=
  "IPv" ++ toString h.version.toNat ++ " " ++ dottedAddress h.source ++ " -> " ++
    dottedAddress h.destination ++ " (proto " ++ toString h.protocol.toNat ++ ", len " ++
    toString h.totalLength.toNat ++ ", ihl " ++ toString h.headerLength ++ ")"

@[simp]
theorem length_write (h : Ipv4Header) (offset : Nat) (new : Bytes)
    (fits : offset + new.length ≤ ipv4MinHeader) :
    (h.write offset new fits).bytes.length = h.bytes.length :=
  length_overlay (Nat.le_trans fits h.complete)

end Ipv4Header

end TunnelRelay
