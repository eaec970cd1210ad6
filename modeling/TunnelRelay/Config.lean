import TunnelRelay.Address
import TunnelRelay.Protocol

/-!
# Configuration

What can be set about a relay, the values it has otherwise, and the conditions under which it can
work. Times are in milliseconds, sizes in bytes.
-/

namespace TunnelRelay

structure Config where
  /-- The loopback port on which tunnels are accepted. -/
  port : UInt16 := 31416
  /-- How often idle flows are looked for. -/
  sweepInterval : Nat := 60000
  /-- How long a UDP flow may be idle. -/
  udpIdleTimeout : Nat := 120000
  /-- The longest payload of a TCP packet towards the device. -/
  maxTcpPayload : Nat := 1400
  /-- The capacity of a TCP flow's ring of bytes from the device. -/
  streamCapacity : Nat := 4 * maxPacketLength
  /-- The capacity of a UDP flow's ring of datagrams from the device. -/
  datagramCapacity : Nat := 4 * maxPacketLength
  /-- The capacity of a session's ring of packets for the device. -/
  tunnelCapacity : Nat := 16 * maxPacketLength
  deriving DecidableEq, Repr

inductive ConfigError where
  | noTcpPayload
  | tcpPayloadTooLong (length : Nat)
  | tunnelCapacityTooSmall
  | noStreamCapacity
  | noDatagramCapacity
  | noSweepInterval
  deriving DecidableEq, Repr

namespace ConfigError

def message : ConfigError → String
  | noTcpPayload => "max TCP payload must be positive"
  | tcpPayloadTooLong length =>
    "max TCP payload " ++ toString length ++ " does not fit into a single IPv4 packet"
  | tunnelCapacityTooSmall =>
    "client buffer size must hold at least one maximum-size packet (" ++
      toString maxPacketLength ++ " bytes)"
  | noStreamCapacity => "TCP stream buffer size must be positive"
  | noDatagramCapacity => "UDP datagram buffer size must be positive"
  | noSweepInterval => "cleanup interval must be positive"

end ConfigError

namespace Config

def listenAt (c : Config) : Endpoint := .loopback c.port

/-- The first condition that a configuration violates, if any. -/
def check (c : Config) : Except ConfigError Unit :=
  if c.maxTcpPayload = 0 then .error .noTcpPayload
  else if maxPacketLength - ipv4MinHeader - tcpMinHeader < c.maxTcpPayload then
    .error (.tcpPayloadTooLong c.maxTcpPayload)
  else if c.tunnelCapacity < maxPacketLength then .error .tunnelCapacityTooSmall
  else if c.streamCapacity = 0 then .error .noStreamCapacity
  else if c.datagramCapacity = 0 then .error .noDatagramCapacity
  else if c.sweepInterval = 0 then .error .noSweepInterval
  else .ok ()

structure Valid (c : Config) : Prop where
  tcpPayload_pos : 0 < c.maxTcpPayload
  tcpPayload_le : c.maxTcpPayload ≤ maxPacketLength - ipv4MinHeader - tcpMinHeader
  le_tunnelCapacity : maxPacketLength ≤ c.tunnelCapacity
  streamCapacity_pos : 0 < c.streamCapacity
  datagramCapacity_pos : 0 < c.datagramCapacity
  sweepInterval_pos : 0 < c.sweepInterval

theorem check_eq_ok_iff {c : Config} : c.check = .ok () ↔ c.Valid := by
  constructor
  · intro h
    unfold check at h
    repeat' split at h
    all_goals try cases h
    constructor <;> omega
  · intro ⟨h₁, h₂, h₃, h₄, h₅, h₆⟩
    unfold check
    rw [if_neg (by omega), if_neg (by omega), if_neg (by omega), if_neg (by omega),
      if_neg (by omega), if_neg (by omega)]

end Config

end TunnelRelay
