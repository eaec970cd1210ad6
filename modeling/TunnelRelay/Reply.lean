import TunnelRelay.Packet
import TunnelRelay.Slab

/-!
# Replies

Packets towards the device. Their headers come from the first packet of the flow, turned around and
freed of options; a flow edits the transport header between packets. Data packets and packets without
payload are put together in slabs of their own, so that a data packet that still waits for room is
not disturbed by acknowledgements sent in the meantime.
-/

namespace TunnelRelay

/-- What a flow needs to put packets for the device together. -/
structure Reply where
  ipv4 : Ipv4Header
  transport : TransportHeader
  /-- The slab of the most recent data packet. -/
  data : Slab
  /-- The slab of packets without payload. -/
  control : Slab

namespace Reply

def headers (r : Reply) : Bytes := r.ipv4.bytes ++ r.transport.bytes

/-- The longest payload of a single packet. -/
def maxPayload (r : Reply) : Nat := maxPacketLength - r.headers.length

/-- Prepares replies to a packet that the relay can route. -/
def ofRequest (request : Packet) : Checked (Option Reply) := do
  match ← request.transportHeader with
  | none => return none
  | some header =>
    let start := (← request.ipv4).headerLength
    let length := header.protocol.minHeader
    let ipv4 ← Ipv4Header.ofBytes (← slice request.bytes 0 ipv4MinHeader)
    let ipv4 ← ipv4.setHeaderLength ipv4MinHeader
    let transport ←
      TransportHeader.ofBytes header.protocol (← slice request.bytes start (start + length))
    return some {
      ipv4 := ipv4.swapAddresses
      transport := transport.swapPorts.dropOptions
      data := .zeroed maxPacketLength
      control := .zeroed (ipv4MinHeader + length) }

def editTransport (r : Reply) (edit : TransportHeader → Checked TransportHeader) : Checked Reply := do
  return { r with transport := ← edit r.transport }

/-- Changes the TCP header of the packets to come, if they have one. -/
def editTcp (r : Reply) (edit : TcpHeader → TcpHeader) : Reply :=
  match r.transport with
  | .tcp h => { r with transport := .tcp (edit h) }
  | .udp _ => r

/-- Completes the packet in a slab: lengths first, then checksums. -/
def complete (r : Reply) (slab : Slab) : Checked (Packet × Slab) := do
  let length := r.headers.length
  require (length ≤ slab.length) .overflow
  let payload ← narrow16 (slab.length - length)
  let total ← narrow16 slab.length
  let ipv4 ← Ipv4Header.ofBytes (← slice slab.filled 0 ipv4MinHeader)
  let transport ← slice slab.filled ipv4MinHeader length
  let transport ← TransportHeader.ofBytes r.transport.protocol transport
  let transport ← transport.setPayloadLength payload
  let bytes := (ipv4.setTotalLength total).bytes ++ transport.bytes ++ slab.filled.drop length
  let packet ← (← Packet.ofBytes bytes).withChecksums
  return (packet, { slab with filled := packet.bytes })

/-- Starts a data packet and says how many bytes of payload it can take, `limit` at most. -/
def reserve (r : Reply) (limit : Nat) : Checked (Nat × Reply) := do
  let data ← r.data.clear.put r.headers
  let room := min limit r.maxPayload
  require (room ≤ data.remaining) .outOfRange
  return (room, { r with data })

/-- Lays `bytes` behind the headers of the started packet and counts `n` bytes as its payload. -/
def commit (r : Reply) (bytes : Bytes) (n : Nat) : Checked Reply := do
  return { r with data := ← (← r.data.lay bytes).advance n }

def completeData (r : Reply) : Checked (Packet × Reply) := do
  let (packet, data) ← r.complete r.data
  return (packet, { r with data })

def withPayload (r : Reply) (payload : Bytes) : Checked (Packet × Reply) := do
  require (payload.length ≤ r.maxPayload) .assertion
  let data ← r.data.clear.put r.headers
  let (packet, data) ← r.complete (← data.put payload)
  return (packet, { r with data })

def withoutPayload (r : Reply) : Checked (Packet × Reply) := do
  let (packet, control) ← r.complete (← r.control.clear.put r.headers)
  return (packet, { r with control })

/-- The most recent data packet, as it was completed. -/
def latestData (r : Reply) : Checked Packet := Packet.ofBytes r.data.filled

end Reply

end TunnelRelay
