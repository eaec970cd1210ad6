import TunnelRelay.Outlet
import TunnelRelay.Ring.Stream

/-!
# Outboxes

The way out of a session: a ring of packets that the tunnel has not taken yet, and the flows that
wait for room in it, each of them once and in the order in which they asked.
-/

namespace TunnelRelay

/-- The way out of a session. -/
structure Outbox where
  ring : StreamRing
  waiting : List FlowKey := []

/-- A packet is taken only if all of it fits. -/
instance : Outlet Outbox where
  offer packet outbox :=
    if outbox.ring.remaining < packet.length then .ok (false, outbox)
    else do
      let (_, ring) ← outbox.ring.push packet
      return (true, { outbox with ring })
  await key outbox :=
    if key ∈ outbox.waiting then outbox else { outbox with waiting := outbox.waiting ++ [key] }

end TunnelRelay
