import TunnelRelay.Header.Tcp
import TunnelRelay.Header.Udp

/-!
# Transport headers

What the relay asks of a transport header without caring which protocol it belongs to.
-/

namespace TunnelRelay

inductive TransportHeader where
  | tcp (header : TcpHeader)
  | udp (header : UdpHeader)

namespace TransportHeader

def ofBytes (protocol : Protocol) (bytes : Bytes) : Checked TransportHeader :=
  match protocol with
  | .tcp => tcp <$> TcpHeader.ofBytes bytes
  | .udp => udp <$> UdpHeader.ofBytes bytes

def bytes : TransportHeader → Bytes
  | tcp h => h.bytes
  | udp h => h.bytes

def protocol : TransportHeader → Protocol
  | tcp _ => .tcp
  | udp _ => .udp

def sourcePort : TransportHeader → UInt16
  | tcp h => h.sourcePort
  | udp h => h.sourcePort

def destinationPort : TransportHeader → UInt16
  | tcp h => h.destinationPort
  | udp h => h.destinationPort

def headerLength : TransportHeader → Nat
  | tcp h => h.headerLength
  | udp _ => udpHeaderLength

def swapPorts : TransportHeader → TransportHeader
  | tcp h => tcp h.swapPorts
  | udp h => udp h.swapPorts

/-- Declares a header without options, which only TCP can have. -/
def dropOptions : TransportHeader → TransportHeader
  | tcp h => tcp h.dropOptions
  | udp h => udp h

/-- Declares the length of the payload, which only UDP writes down. -/
def setPayloadLength (h : TransportHeader) (length : UInt16) : Checked TransportHeader :=
  match h with
  | tcp h => .ok (tcp h)
  | udp h => udp <$> h.setPayloadLength length

/-- Brings the checksum up to date. UDP goes without one. -/
def updateChecksum (h : TransportHeader) (source destination : UInt32) (payload : Bytes) :
    Checked TransportHeader :=
  match h with
  | tcp h => tcp <$> h.updateChecksum source destination payload
  | udp h => .ok (udp h.clearChecksum)

def describe : TransportHeader → String
  | tcp h => h.describe
  | udp h => h.describe

end TransportHeader

end TunnelRelay
