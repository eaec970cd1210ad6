/-!
# TCP flags

The nine control bits of a TCP segment as a set.
-/

namespace TunnelRelay

structure TcpFlags where
  bits : UInt16
  deriving DecidableEq, Repr

namespace TcpFlags

def fin : TcpFlags := ⟨0x001⟩
def syn : TcpFlags := ⟨0x002⟩
def rst : TcpFlags := ⟨0x004⟩
def psh : TcpFlags := ⟨0x008⟩
def ack : TcpFlags := ⟨0x010⟩
def urg : TcpFlags := ⟨0x020⟩
def ece : TcpFlags := ⟨0x040⟩
def cwr : TcpFlags := ⟨0x080⟩
def ns : TcpFlags := ⟨0x100⟩

/-- The set of the nine lowest bits; bits beyond them have no meaning and are dropped. -/
def ofBits (bits : UInt16) : TcpFlags := ⟨bits &&& 0x1ff⟩

instance : Union TcpFlags := ⟨fun a b => ⟨a.bits ||| b.bits⟩⟩

def has (s f : TcpFlags) : Bool := s.bits &&& f.bits == f.bits

/-- The flags in the order in which their names are written. -/
def named : List (TcpFlags × String) :=
  [(syn, "SYN"), (ack, "ACK"), (fin, "FIN"), (rst, "RST"), (psh, "PSH"), (urg, "URG"),
    (ece, "ECE"), (cwr, "CWR"), (ns, "NS")]

/-- The names of the set flags, or a dash for none. -/
def text (s : TcpFlags) : String :=
  match (named.filter fun flag => s.has flag.1).map Prod.snd with
  | [] => "-"
  | names => String.intercalate "|" names

end TcpFlags

end TunnelRelay
