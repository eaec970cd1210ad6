import TunnelRelay.Packet

/-!
# Flow keys

A flow is identified within its session by protocol, the device's end and the remote end.
-/

namespace TunnelRelay

/-- The identity of a flow. `source` is the end at the device. -/
structure FlowKey where
  protocol : Protocol
  source : Endpoint
  destination : Endpoint
  deriving DecidableEq

namespace FlowKey

/-- The flow of a packet that the relay can route. -/
def ofPacket (p : Packet) : Checked (Option FlowKey) := do
  match ← p.transportHeader with
  | none => return none
  | some transport =>
    let header ← p.ipv4
    return some {
      protocol := transport.protocol
      source := ⟨header.source, transport.sourcePort⟩
      destination := ⟨header.destination, transport.destinationPort⟩ }

def text (k : FlowKey) : String :=
  k.protocol.name ++ " " ++ k.source.text ++ " -> " ++ k.destination.text

def reverse (k : FlowKey) : FlowKey := ⟨k.protocol, k.destination, k.source⟩

@[simp]
theorem reverse_reverse (k : FlowKey) : k.reverse.reverse = k := rfl

end FlowKey

end TunnelRelay
