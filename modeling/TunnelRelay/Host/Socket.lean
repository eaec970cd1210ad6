import TunnelRelay.Host.Event

/-!
# Sockets

A socket is described by what its calls will find: what has arrived on it, how much it will take, and
how its other calls will end. Where such a queue is empty a call behaves as on a quiet, healthy
socket. The length of a read is bounded by the reader, that of a write by the writer.
-/

namespace TunnelRelay

inductive Arrival where
  | data (bytes : Bytes)
  | failure (kind : ErrorKind)
  /-- The end of a stream, or an empty datagram. -/
  | finished
  deriving DecidableEq, Repr

/-- How much a socket takes in one call. -/
inductive Transfer where
  | upTo (count : Nat)
  | everything
  | failure (kind : ErrorKind)
  deriving DecidableEq, Repr

/-- What the calls on a socket will find. -/
structure Socket where
  arrivals : List Arrival := []
  transfers : List Transfer := []
  /-- Whether a socket without further transfers takes nothing at all. -/
  blocked : Bool := false
  pendingErrors : List PendingError := []
  peerAddresses : List Outcome := []
  shutdowns : List Outcome := []
  registrations : List Outcome := []
  noDelays : List Outcome := []
  /-- For a listener: who connects next. -/
  visitors : List (Except ErrorKind Endpoint) := []

namespace Socket

/-- Reads from a stream. The end of a stream stays, and so does what did not fit. -/
def read (s : Socket) (size : Nat) : Except ErrorKind Bytes × Socket :=
  match s.arrivals with
  | [] => (.error .wouldBlock, s)
  | .failure kind :: rest => (.error kind, { s with arrivals := rest })
  | .finished :: _ => (.ok [], s)
  | .data bytes :: rest =>
    let left := bytes.drop size
    (.ok (bytes.take size), { s with arrivals := if left = [] then rest else .data left :: rest })

/-- Receives a datagram; what does not fit is lost. -/
def receive (s : Socket) (size : Nat) : Except ErrorKind Bytes × Socket :=
  match s.arrivals with
  | [] => (.error .wouldBlock, s)
  | .failure kind :: rest => (.error kind, { s with arrivals := rest })
  | .finished :: rest => (.ok [], { s with arrivals := rest })
  | .data bytes :: rest => (.ok (bytes.take size), { s with arrivals := rest })

/-- Writes to a stream; the result is what was taken. -/
def write (s : Socket) (bytes : Bytes) : Except ErrorKind Bytes × Socket :=
  match s.transfers with
  | [] => (if s.blocked then .error .wouldBlock else .ok bytes, s)
  | .upTo count :: rest => (.ok (bytes.take count), { s with transfers := rest })
  | .everything :: rest => (.ok bytes, { s with transfers := rest })
  | .failure kind :: rest => (.error kind, { s with transfers := rest })

/-- Sends a datagram, as a whole or not at all. -/
def send (s : Socket) (bytes : Bytes) : Except ErrorKind Bytes × Socket :=
  match s.transfers with
  | [] => (if s.blocked then .error .wouldBlock else .ok bytes, s)
  | .failure kind :: rest => (.error kind, { s with transfers := rest })
  | _ :: rest => (.ok bytes, { s with transfers := rest })

def takeError (s : Socket) : PendingError × Socket :=
  (s.pendingErrors.headD .none, { s with pendingErrors := s.pendingErrors.tail })

def peerAddress (s : Socket) : Outcome × Socket :=
  (s.peerAddresses.headD none, { s with peerAddresses := s.peerAddresses.tail })

def shutdown (s : Socket) : Outcome × Socket :=
  (s.shutdowns.headD none, { s with shutdowns := s.shutdowns.tail })

/-- Any change of what the poller knows about the socket. -/
def register (s : Socket) : Outcome × Socket :=
  (s.registrations.headD none, { s with registrations := s.registrations.tail })

def setNoDelay (s : Socket) : Outcome × Socket :=
  (s.noDelays.headD none, { s with noDelays := s.noDelays.tail })

def accept (s : Socket) : Except ErrorKind Endpoint × Socket :=
  (s.visitors.headD (.error .wouldBlock), { s with visitors := s.visitors.tail })

/-- The socket with more to find behind what it has. -/
def extend (s more : Socket) : Socket where
  arrivals := s.arrivals ++ more.arrivals
  transfers := s.transfers ++ more.transfers
  blocked := s.blocked
  pendingErrors := s.pendingErrors ++ more.pendingErrors
  peerAddresses := s.peerAddresses ++ more.peerAddresses
  shutdowns := s.shutdowns ++ more.shutdowns
  registrations := s.registrations ++ more.registrations
  noDelays := s.noDelays ++ more.noDelays
  visitors := s.visitors ++ more.visitors

/-- An upper bound for the reads that yield something. -/
def unread (s : Socket) : Nat :=
  s.arrivals.foldr (fun
    | .data bytes, n => bytes.length + 1 + n
    | _, n => 1 + n) 0

end Socket

end TunnelRelay
