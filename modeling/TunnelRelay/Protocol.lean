/-!
# Transport protocols

The two protocols that the relay terminates, their numbers in the IPv4 header, and the lengths that
bound their headers.
-/

namespace TunnelRelay

/-- The longest IPv4 packet: its total length has 16 bits. -/
def maxPacketLength : Nat := 0xffff

def ipv4MinHeader : Nat := 20

def tcpMinHeader : Nat := 20

/-- A UDP header, which has no options. -/
def udpHeaderLength : Nat := 8

inductive Protocol where
  | tcp
  | udp
  deriving DecidableEq, Repr

namespace Protocol

def number : Protocol → UInt8
  | tcp => 6
  | udp => 17

/-- The protocol with the given number, if the relay knows it. -/
def ofNumber? (n : UInt8) : Option Protocol :=
  if n = tcp.number then some tcp else if n = udp.number then some udp else none

def name : Protocol → String
  | tcp => "TCP"
  | udp => "UDP"

def minHeader : Protocol → Nat
  | tcp => tcpMinHeader
  | udp => udpHeaderLength

theorem ofNumber?_eq_some_iff {n : UInt8} {p : Protocol} : ofNumber? n = some p ↔ n = p.number := by
  unfold ofNumber?
  split
  · next h => subst h; cases p <;> simp [number]
  · next h =>
    split
    · next h' => subst h'; cases p <;> simp [number]
    · next h' => cases p <;> simp_all

end Protocol

end TunnelRelay
