import TunnelRelay.Host.Socket

/-!
# The host

The machine below the relay: its sockets, its poller, its clock and its source of random numbers, and
the events so far. How every call will end is part of the host's state, so that a statement about all
hosts is a statement about everything that can happen to a relay. Each call takes its result from
there and records itself.
-/

namespace TunnelRelay

/-- How the calls that create things will end. -/
structure Creations where
  connect : List Outcome := []
  openDatagram : List Outcome := []
  connectDatagram : List Outcome := []
  openListener : List Outcome := []
  reuseAddress : List Outcome := []
  bind : List Outcome := []
  listen : List Outcome := []
  setNonblocking : List Outcome := []
  openPoller : List Outcome := []
  deriving DecidableEq

def Creations.extend (c more : Creations) : Creations where
  connect := c.connect ++ more.connect
  openDatagram := c.openDatagram ++ more.openDatagram
  connectDatagram := c.connectDatagram ++ more.connectDatagram
  openListener := c.openListener ++ more.openListener
  reuseAddress := c.reuseAddress ++ more.reuseAddress
  bind := c.bind ++ more.bind
  listen := c.listen ++ more.listen
  setNonblocking := c.setNonblocking ++ more.setNonblocking
  openPoller := c.openPoller ++ more.openPoller

/-- How one wait of the poller will end: after some time, with events or a failure. -/
structure Wakeup where
  signals : List (Nat × Signal) := []
  elapsed : Nat := 0
  failure : Outcome := none
  deriving DecidableEq

/-- The number that the random source yields once its script is used up. -/
def defaultRandom : UInt32 := 0x1000

structure Host where
  /-- The sockets about which anything is known; all others are quiet and healthy. -/
  sockets : List (SocketId × Socket) := []
  nextSocket : SocketId := 0
  creations : Creations := {}
  wakeups : List Wakeup := []
  clock : Nat := 0
  randoms : List UInt32 := []
  /-- The events so far, latest first. -/
  history : List Event := []

namespace Host

def events (h : Host) : List Event := h.history.reverse

def record (e : Event) (h : Host) : Host := { h with history := e :: h.history }

def socket (h : Host) (id : SocketId) : Socket := (h.sockets.lookup id).getD {}

/-- The association list with the entry for `id` replaced, or added at the end. -/
def insertSocket (id : SocketId) (s : Socket) : List (SocketId × Socket) → List (SocketId × Socket)
  | [] => [(id, s)]
  | entry :: rest =>
    if id == entry.1 then (id, s) :: rest else entry :: insertSocket id s rest

def setSocket (h : Host) (id : SocketId) (s : Socket) : Host :=
  { h with sockets := insertSocket id s h.sockets }

def extendSocket (h : Host) (id : SocketId) (more : Socket) : Host :=
  h.setSocket id ((h.socket id).extend more)

/-- Sets whether a socket without further transfers takes nothing. -/
def setBlocked (h : Host) (id : SocketId) (blocked : Bool) : Host :=
  h.setSocket id { h.socket id with blocked }

def advance (h : Host) (time : Nat) : Host := { h with clock := h.clock + time }

/-- Carries out a call on a socket and records it. -/
def callSocket {α : Type} (id : SocketId) (call : Socket → α × Socket) (event : α → Event)
    (h : Host) : α × Host :=
  let (result, s) := call (h.socket id)
  (result, (h.setSocket id s).record (event result))

def read (id : SocketId) (size : Nat) : Host → Except ErrorKind Bytes × Host :=
  callSocket id (·.read size) (.read id size)

def receive (id : SocketId) (size : Nat) : Host → Except ErrorKind Bytes × Host :=
  callSocket id (·.receive size) (.receive id size)

def write (id : SocketId) (bytes : Bytes) : Host → Except ErrorKind Bytes × Host :=
  callSocket id (·.write bytes) (.write id bytes.length)

def send (id : SocketId) (bytes : Bytes) : Host → Except ErrorKind Bytes × Host :=
  callSocket id (·.send bytes) (.send id bytes.length)

def takeError (id : SocketId) : Host → PendingError × Host :=
  callSocket id Socket.takeError (.takeError id)

def peerAddress (id : SocketId) : Host → Outcome × Host :=
  callSocket id Socket.peerAddress (.peerAddress id)

def shutdownWrite (id : SocketId) : Host → Outcome × Host :=
  callSocket id Socket.shutdown (.shutdownWrite id)

def setNoDelay (id : SocketId) : Host → Outcome × Host :=
  callSocket id Socket.setNoDelay (.setNoDelay id)

def register (id : SocketId) (token : Nat) (interest : Interest) : Host → Outcome × Host :=
  callSocket id Socket.register (.register id token interest)

def reregister (id : SocketId) (token : Nat) (interest : Interest) : Host → Outcome × Host :=
  callSocket id Socket.register (.reregister id token interest)

def deregister (id : SocketId) : Host → Outcome × Host :=
  callSocket id Socket.register (.deregister id)

def close (id : SocketId) (h : Host) : Host := h.record (.close id)

def newSocket (h : Host) : SocketId × Host :=
  (h.nextSocket, { h with nextSocket := h.nextSocket + 1 })

/-- A new socket where the call that creates it succeeds. -/
def create (outcome : Outcome) (h : Host) : Except ErrorKind SocketId × Host :=
  match outcome with
  | some kind => (.error kind, h)
  | none => let (id, h) := h.newSocket; (.ok id, h)

def connect (peer : Endpoint) (h : Host) : Except ErrorKind SocketId × Host :=
  let outcome := h.creations.connect.headD none
  let creations := { h.creations with connect := h.creations.connect.tail }
  { h with creations }.record (.connect peer outcome) |>.create outcome

/-- Opens a datagram socket at an end of the host's choice. -/
def openDatagram (h : Host) : Except ErrorKind SocketId × Host :=
  let outcome := h.creations.openDatagram.headD none
  let creations := { h.creations with openDatagram := h.creations.openDatagram.tail }
  { h with creations }.record (.openDatagram .unspecified outcome) |>.create outcome

def openListener (h : Host) : Except ErrorKind SocketId × Host :=
  let outcome := h.creations.openListener.headD none
  let creations := { h.creations with openListener := h.creations.openListener.tail }
  { h with creations }.record (.openListener outcome) |>.create outcome

def connectDatagram (id : SocketId) (peer : Endpoint) (h : Host) : Outcome × Host :=
  let outcome := h.creations.connectDatagram.headD none
  let creations := { h.creations with connectDatagram := h.creations.connectDatagram.tail }
  (outcome, { h with creations }.record (.connectDatagram id peer outcome))

def openPoller (h : Host) : Outcome × Host :=
  let outcome := h.creations.openPoller.headD none
  let creations := { h.creations with openPoller := h.creations.openPoller.tail }
  (outcome, { h with creations }.record (.openPoller outcome))

def reuseAddress (id : SocketId) (h : Host) : Outcome × Host :=
  let outcome := h.creations.reuseAddress.headD none
  let creations := { h.creations with reuseAddress := h.creations.reuseAddress.tail }
  (outcome, { h with creations }.record (.reuseAddress id outcome))

def bind (id : SocketId) (endpoint : Endpoint) (h : Host) : Outcome × Host :=
  let outcome := h.creations.bind.headD none
  let creations := { h.creations with bind := h.creations.bind.tail }
  (outcome, { h with creations }.record (.bind id endpoint outcome))

def listen (id : SocketId) (backlog : Nat) (h : Host) : Outcome × Host :=
  let outcome := h.creations.listen.headD none
  let creations := { h.creations with listen := h.creations.listen.tail }
  (outcome, { h with creations }.record (.listen id backlog outcome))

def setNonblocking (id : SocketId) (h : Host) : Outcome × Host :=
  let outcome := h.creations.setNonblocking.headD none
  let creations := { h.creations with setNonblocking := h.creations.setNonblocking.tail }
  (outcome, { h with creations }.record (.setNonblocking id outcome))

/-- Takes in the next visitor of a listener, on a new socket. -/
def accept (listener : SocketId) (h : Host) : Except ErrorKind (SocketId × Endpoint) × Host :=
  let (visitor, s) := (h.socket listener).accept
  let h := h.setSocket listener s
  match visitor with
  | .error kind => (.error kind, h.record (.accept listener (.error kind)))
  | .ok peer =>
    let (id, h) := h.newSocket
    (.ok (id, peer), h.record (.accept listener (.ok id)))

/-- Waits for signals, no longer than `timeout` if there is one. -/
def poll (timeout : Option Nat) (h : Host) : Except ErrorKind (List (Nat × Signal)) × Host :=
  let wakeup := h.wakeups.headD {}
  let h := { h with wakeups := h.wakeups.tail, clock := h.clock + wakeup.elapsed }
  (match wakeup.failure with
    | some kind => .error kind
    | none => .ok wakeup.signals, h.record (.poll timeout))

def random (h : Host) : UInt32 × Host :=
  (h.randoms.headD defaultRandom, { h with randoms := h.randoms.tail })

/-- An upper bound for the reads on all sockets that yield something. -/
def unread (h : Host) : Nat := h.sockets.foldr (fun entry n => entry.2.unread + n) 0

end Host

end TunnelRelay
