import TunnelRelay.Checksum
import TunnelRelay.Header.TcpFlags
import TunnelRelay.Protocol

/-!
# TCP headers

A header is a byte string long enough for the fixed fields. Byte 12 is shared: its high half is the
data offset, its lowest bit the NS flag, and the bits between are reserved and never touched.
-/

namespace TunnelRelay

/-- The bytes of a TCP header, fixed fields first. -/
structure TcpHeader where
  bytes : Bytes
  complete : tcpMinHeader ≤ bytes.length

namespace TcpHeader

def ofBytes (bytes : Bytes) : Checked TcpHeader :=
  if h : tcpMinHeader ≤ bytes.length then .ok ⟨bytes, h⟩ else .error .assertion

def write (h : TcpHeader) (offset : Nat) (new : Bytes)
    (fits : offset + new.length ≤ tcpMinHeader) : TcpHeader :=
  ⟨overlay h.bytes offset new, by
    rw [length_overlay (Nat.le_trans fits h.complete)]; exact h.complete⟩

def sourcePort (h : TcpHeader) : UInt16 := word16At h.bytes 0

def destinationPort (h : TcpHeader) : UInt16 := word16At h.bytes 2

def sequence (h : TcpHeader) : UInt32 := word32At h.bytes 4

def acknowledgement (h : TcpHeader) : UInt32 := word32At h.bytes 8

def headerLength (h : TcpHeader) : Nat := (h.bytes.getD 12 0 >>> 4).toNat * 4

def flags (h : TcpHeader) : TcpFlags := .ofBits (word16 (h.bytes.getD 12 0 &&& 1) (h.bytes.getD 13 0))

def window (h : TcpHeader) : UInt16 := word16At h.bytes 14

def checksum (h : TcpHeader) : UInt16 := word16At h.bytes 16

def setSourcePort (h : TcpHeader) (port : UInt16) : TcpHeader :=
  h.write 0 (bytesOf16 port) (Nat.le_of_ble_eq_true rfl)

def setDestinationPort (h : TcpHeader) (port : UInt16) : TcpHeader :=
  h.write 2 (bytesOf16 port) (Nat.le_of_ble_eq_true rfl)

def swapPorts (h : TcpHeader) : TcpHeader :=
  (h.setSourcePort h.destinationPort).setDestinationPort h.sourcePort

def setSequence (h : TcpHeader) (n : UInt32) : TcpHeader :=
  h.write 4 (bytesOf32 n) (Nat.le_of_ble_eq_true rfl)

def setAcknowledgement (h : TcpHeader) (n : UInt32) : TcpHeader :=
  h.write 8 (bytesOf32 n) (Nat.le_of_ble_eq_true rfl)

/-- Sets all nine flags; the data offset and the reserved bits stay. -/
def setFlags (h : TcpHeader) (flags : TcpFlags) : TcpHeader :=
  let kept : UInt8 := h.bytes.getD 12 0 &&& 0xfe
  let ns : UInt8 := (flags.bits >>> 8).toUInt8 &&& 1
  h.write 12 [kept ||| ns, flags.bits.toUInt8] (Nat.le_of_ble_eq_true rfl)

def setWindow (h : TcpHeader) (window : UInt16) : TcpHeader :=
  h.write 14 (bytesOf16 window) (Nat.le_of_ble_eq_true rfl)

/-- Declares a header without options; flags and reserved bits stay. -/
def dropOptions (h : TcpHeader) : TcpHeader :=
  h.write 12 [(h.bytes.getD 12 0 &&& 0x0f) ||| 0x50] (Nat.le_of_ble_eq_true rfl)

def setChecksum (h : TcpHeader) (checksum : UInt16) : TcpHeader :=
  h.write 16 (bytesOf16 checksum) (Nat.le_of_ble_eq_true rfl)

/-- Writes the checksum of the segment that this header makes with a payload. The segment's length
counts in the pseudo-header, reduced to 16 bits. -/
def updateChecksum (h : TcpHeader) (source destination : UInt32) (payload : Bytes) :
    Checked TcpHeader := do
  let cleared := h.setChecksum 0
  let length := (cleared.headerLength + payload.length).toUInt16
  let sum := Checksum.pseudoHeader source destination Protocol.tcp.number length
  let sum ← Checksum.sumWords sum (← slice cleared.bytes 0 cleared.headerLength)
  let sum ← Checksum.sumWords sum payload
  return cleared.setChecksum (Checksum.finish sum)

def describe (h : TcpHeader) : String :=
  "TCP " ++ toString h.sourcePort.toNat ++ "->" ++ toString h.destinationPort.toNat ++ " [" ++
    h.flags.text ++ "] seq=" ++ toString h.sequence.toNat ++ " ack=" ++
    toString h.acknowledgement.toNat ++ " win=" ++ toString h.window.toNat

@[simp]
theorem length_write (h : TcpHeader) (offset : Nat) (new : Bytes)
    (fits : offset + new.length ≤ tcpMinHeader) :
    (h.write offset new fits).bytes.length = h.bytes.length :=
  length_overlay (Nat.le_trans fits h.complete)

end TcpHeader

end TunnelRelay
