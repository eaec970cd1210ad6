import TunnelRelay.Bytes
import TunnelRelay.Protocol

/-!
# UDP headers

Four 16-bit fields: two ports, the length of header and payload, and a checksum that IPv4 allows to
be left out, which is written as zero.
-/

namespace TunnelRelay

structure UdpHeader where
  bytes : Bytes
  complete : udpHeaderLength ≤ bytes.length

namespace UdpHeader

def ofBytes (bytes : Bytes) : Checked UdpHeader :=
  if h : udpHeaderLength ≤ bytes.length then .ok ⟨bytes, h⟩ else .error .assertion

def write (h : UdpHeader) (offset : Nat) (new : Bytes)
    (fits : offset + new.length ≤ udpHeaderLength) : UdpHeader :=
  ⟨overlay h.bytes offset new, by
    rw [length_overlay (Nat.le_trans fits h.complete)]; exact h.complete⟩

def sourcePort (h : UdpHeader) : UInt16 := word16At h.bytes 0

def destinationPort (h : UdpHeader) : UInt16 := word16At h.bytes 2

/-- The declared length of header and payload. -/
def length (h : UdpHeader) : UInt16 := word16At h.bytes 4

def checksum (h : UdpHeader) : UInt16 := word16At h.bytes 6

def setSourcePort (h : UdpHeader) (port : UInt16) : UdpHeader :=
  h.write 0 (bytesOf16 port) (Nat.le_of_ble_eq_true rfl)

def setDestinationPort (h : UdpHeader) (port : UInt16) : UdpHeader :=
  h.write 2 (bytesOf16 port) (Nat.le_of_ble_eq_true rfl)

def swapPorts (h : UdpHeader) : UdpHeader :=
  (h.setSourcePort h.destinationPort).setDestinationPort h.sourcePort

/-- Declares a payload, which has to leave room for the header in the 16-bit length. -/
def setPayloadLength (h : UdpHeader) (length : UInt16) : Checked UdpHeader :=
  if udpHeaderLength + length.toNat < 0x10000 then
    .ok (h.write 4 (bytesOf16 (udpHeaderLength.toUInt16 + length)) (Nat.le_of_ble_eq_true rfl))
  else .error .overflow

def clearChecksum (h : UdpHeader) : UdpHeader :=
  h.write 6 (bytesOf16 0) (Nat.le_of_ble_eq_true rfl)

def describe (h : UdpHeader) : String :=
  "UDP " ++ toString h.sourcePort.toNat ++ "->" ++ toString h.destinationPort.toNat ++ " len=" ++
    toString h.length.toNat

@[simp]
theorem length_write (h : UdpHeader) (offset : Nat) (new : Bytes)
    (fits : offset + new.length ≤ udpHeaderLength) :
    (h.write offset new fits).bytes.length = h.bytes.length :=
  length_overlay (Nat.le_trans fits h.complete)

end UdpHeader

end TunnelRelay
