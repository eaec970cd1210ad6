/-!
# Addresses

IPv4 addresses are 32-bit numbers; an endpoint is an address with a port.
-/

namespace TunnelRelay

def dottedAddress (address : UInt32) : String :=
  let part (shift : UInt32) := toString ((address >>> shift) &&& 0xff).toNat
  part 24 ++ "." ++ part 16 ++ "." ++ part 8 ++ "." ++ part 0

/-- One end of a flow. -/
structure Endpoint where
  address : UInt32
  port : UInt16
  deriving DecidableEq, Repr

namespace Endpoint

def text (e : Endpoint) : String := dottedAddress e.address ++ ":" ++ toString e.port.toNat

/-- Any address and any port, to let the host choose. -/
def unspecified : Endpoint := ⟨0, 0⟩

def loopback (port : UInt16) : Endpoint := ⟨0x7f000001, port⟩

end Endpoint

end TunnelRelay
