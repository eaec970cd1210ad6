import TunnelRelay.Header.Ipv4
import TunnelRelay.Header.Transport

/-!
# IPv4 packets

A packet is its bytes together with the verdict of `Packet.ofBytes`: whether a transport header that
the relay understands follows the IPv4 header, of which protocol, and how long it is. All other
offsets are read from the bytes again when they are needed.
-/

namespace TunnelRelay

/-- The transport header at an offset, if it is complete: its protocol and its length. -/
def transportAt (bytes : Bytes) (number : UInt8) (offset : Nat) :
    Checked (Option (Protocol × Nat)) :=
  let available := bytes.length - offset
  match Protocol.ofNumber? number with
  | none => .ok none
  | some .tcp =>
    if tcpMinHeader ≤ available then do
      let length := (← TcpHeader.ofBytes (bytes.drop offset)).headerLength
      return if tcpMinHeader ≤ length ∧ length ≤ available then some (.tcp, length) else none
    else .ok none
  | some .udp =>
    .ok (if udpHeaderLength ≤ available then some (.udp, udpHeaderLength) else none)

/-- A packet as it travels through the tunnel. -/
structure Packet where
  bytes : Bytes
  /-- Protocol and length of the transport header, for a packet that the relay can route. -/
  transport : Option (Protocol × Nat)
  deriving DecidableEq

namespace Packet

/-- Judges the bytes of a packet. The declared total length has to be the number of bytes. -/
def ofBytes (bytes : Bytes) : Checked Packet := do
  if bytes.length < ipv4MinHeader then
    return ⟨bytes, none⟩
  else
    let header ← Ipv4Header.ofBytes bytes
    require (header.totalLength.toNat = bytes.length) .assertion
    if header.version = 4 ∧ ipv4MinHeader ≤ header.headerLength ∧
        header.headerLength ≤ bytes.length then
      return ⟨bytes, ← transportAt bytes header.protocol header.headerLength⟩
    else
      return ⟨bytes, none⟩

/-- Whether the relay can route the packet. -/
def isValid (p : Packet) : Bool := p.transport.isSome

def length (p : Packet) : Nat := p.bytes.length

def protocol (p : Packet) : Option Protocol := p.transport.map Prod.fst

/-- The bytes that belong to the IPv4 header: what it declares, or the fixed fields of a packet that
cannot be routed. -/
def ipv4Length (p : Packet) : Checked Nat :=
  if p.isValid then Ipv4Header.headerLength <$> Ipv4Header.ofBytes p.bytes
  else .ok (min ipv4MinHeader p.length)

def ipv4 (p : Packet) : Checked Ipv4Header := do
  Ipv4Header.ofBytes (← slice p.bytes 0 (← p.ipv4Length))

def editIpv4 (p : Packet) (edit : Ipv4Header → Checked Ipv4Header) : Checked Packet := do
  let header ← edit (← p.ipv4)
  return { p with bytes := overlay p.bytes 0 header.bytes }

def transportHeader (p : Packet) : Checked (Option TransportHeader) :=
  match p.transport with
  | none => .ok none
  | some (protocol, length) => do
    let start ← p.ipv4Length
    some <$> TransportHeader.ofBytes protocol (← slice p.bytes start (start + length))

def tcp (p : Packet) : Checked (Option TcpHeader) := do
  match ← p.transportHeader with
  | some (.tcp h) => return some h
  | _ => return none

def payload (p : Packet) : Checked (Option Bytes) :=
  match p.transport with
  | none => .ok none
  | some (_, length) => do
    some <$> slice p.bytes ((← p.ipv4Length) + length) p.length

def payloadLength (p : Packet) : Checked Nat := do
  return ((← p.payload).map List.length).getD 0

/-- Brings the IPv4 and then the transport checksum up to date; other packets stay as they are. -/
def withChecksums (p : Packet) : Checked Packet :=
  match p.transport with
  | none => .ok p
  | some (protocol, length) => do
    let start ← p.ipv4Length
    let header ← Ipv4Header.ofBytes (← slice p.bytes 0 start)
    let header ← header.updateChecksum
    let transport ← TransportHeader.ofBytes protocol (← slice p.bytes start (start + length))
    let payload := p.bytes.drop (start + length)
    let transport ← transport.updateChecksum header.source header.destination payload
    return { p with bytes := header.bytes ++ transport.bytes ++ payload }

def describe (p : Packet) : Checked String := do
  if p.length < ipv4MinHeader then
    return "<truncated packet, " ++ toString p.length ++ " bytes>"
  else
    match ← p.transportHeader with
    | some transport =>
      return (← p.ipv4).describe ++ " / " ++ transport.describe ++ " / " ++
        toString (← p.payloadLength) ++ " bytes payload"
    | none => return (← p.ipv4).describe ++ " (unsupported)"

end Packet

end TunnelRelay
