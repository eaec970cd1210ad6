import TunnelRelay.Flow.Tcp.Phase
import TunnelRelay.FlowKey
import TunnelRelay.Host.Failure
import TunnelRelay.Host.Interest
import TunnelRelay.Text.Hex

/-!
# Notices

Everything that the relay has to say about its work, as data. `Notice.level` and `Notice.text` are
the only places that know how urgent a notice is and how it reads in the log.
-/

namespace TunnelRelay

/-- How urgent a notice is, most urgent first. -/
inductive Level where
  | error
  | warn
  | info
  | debug
  | trace
  deriving DecidableEq, Repr

namespace Level

def name : Level → String
  | error => "ERROR"
  | warn => "WARN"
  | info => "INFO"
  | debug => "DEBUG"
  | trace => "TRACE"

def rank : Level → Nat
  | error => 0
  | warn => 1
  | info => 2
  | debug => 3
  | trace => 4

end Level

inductive FlowNotice where
  | connecting
  | phaseChange (before after : Phase)
  | received (flags : TcpFlags) (sequence acknowledgement : UInt32) (window : UInt16) (length : Nat)
  | firstWithoutSyn (flags : TcpFlags)
  | repeatedSyn (sequence : UInt32)
  | unexpectedSyn (phase : Phase)
  | resetByDevice
  | notConnectedYet (flags : TcpFlags)
  | outOfOrder (sequence expected : UInt32)
  | closedGracefully
  | payloadIgnored (phase : Phase)
  | streamFull (length : Nat)
  | connectFailed (failure : Failure)
  | connected
  | stillConnecting
  | windowFull
  | remoteClosed
  | towardsDevice (length : Nat)
  | waitingForRoom
  | readError (failure : Failure)
  | writeRefused
  | writeError (failure : Failure)
  | towardsNetwork (length : Nat)
  | shutdownFailed (failure : Failure)
  | sending (packet : String)
  | controlDropped (flags : TcpFlags)
  | resetting
  | interestRefused (failure : Failure)
  | pendingAccepted
  | opened
  | datagramsFull (length : Nat)
  | sendError (failure : Failure)
  | receiveError (failure : Failure)
  | datagramTowardsDevice (length : Nat)
  | closed
  | openFailed (failure : Failure)
  | removed
  | staleEvent
  | expired
  deriving DecidableEq, Repr

namespace FlowNotice

def level : FlowNotice → Level
  | streamFull _ | connectFailed _ | readError _ | writeRefused | writeError _ | controlDropped _
  | interestRefused _ | datagramsFull _ | sendError _ | receiveError _ | openFailed _ => .warn
  | received .. | notConnectedYet _ | outOfOrder .. | payloadIgnored _ | stillConnecting
  | windowFull | towardsDevice _ | waitingForRoom | towardsNetwork _ | sending _
  | pendingAccepted | datagramTowardsDevice _ | staleEvent => .trace
  | connecting | phaseChange .. | firstWithoutSyn _ | repeatedSyn _ | unexpectedSyn _
  | resetByDevice | closedGracefully | connected | remoteClosed | shutdownFailed _ | resetting
  | opened | closed | removed | expired => .debug

def text : FlowNotice → String
  | connecting => "connecting"
  | phaseChange before after => before.name ++ " -> " ++ after.name
  | received flags sequence acknowledgement window length =>
    "received " ++ flags.text ++ " seq=" ++ toString sequence.toNat ++ " ack=" ++
      toString acknowledgement.toNat ++ " win=" ++ toString window.toNat ++ ", " ++
      toString length ++ " bytes payload"
  | firstWithoutSyn flags => "first packet is not a SYN (" ++ flags.text ++ "), resetting"
  | repeatedSyn sequence =>
    "duplicate SYN while connecting, accepting seq " ++ toString sequence.toNat
  | unexpectedSyn phase => "unexpected SYN in state " ++ phase.name ++ ", resetting"
  | resetByDevice => "reset by the device"
  | notConnectedYet flags => "still connecting, ignoring " ++ flags.text
  | outOfOrder sequence expected =>
    "ignoring out-of-order packet: seq " ++ toString sequence.toNat ++ ", expected " ++
      toString expected.toNat
  | closedGracefully => "closed gracefully"
  | payloadIgnored phase => "ignoring payload in state " ++ phase.name
  | streamFull length => "stream buffer full, dropping " ++ toString length ++ " bytes"
  | connectFailed failure => "connect failed: " ++ failure.message
  | connected => "connected"
  | stillConnecting => "still connecting"
  | windowFull => "device window is full"
  | remoteClosed => "remote closed"
  | towardsDevice length => toString length ++ " bytes towards the device"
  | waitingForRoom => "client buffer full, waiting to be pulled"
  | readError failure => "read error: " ++ failure.message
  | writeRefused => "socket accepts no more data"
  | writeError failure => "write error: " ++ failure.message
  | towardsNetwork length => toString length ++ " bytes towards the network"
  | shutdownFailed failure => "shutdown failed: " ++ failure.message
  | sending packet => "sending " ++ packet
  | controlDropped flags => "client buffer full, dropping " ++ flags.text ++ " packet"
  | resetting => "resetting"
  | interestRefused failure => "cannot update registration: " ++ failure.message
  | pendingAccepted => "pending packet accepted"
  | opened => "open"
  | datagramsFull length => "datagram buffer full, dropping " ++ toString length ++ " bytes"
  | sendError failure => "send error: " ++ failure.message
  | receiveError failure => "receive error: " ++ failure.message
  | datagramTowardsDevice length =>
    "datagram of " ++ toString length ++ " bytes towards the device"
  | closed => "closed"
  | openFailed failure => "cannot open connection, dropping packet: " ++ failure.message
  | removed => "removed"
  | staleEvent => "event for a removed connection"
  | expired => "expired"

end FlowNotice

inductive SessionNotice where
  | connected
  | closedByDevice
  | framingLost (failure : Failure)
  | readError (failure : Failure)
  | writeError (failure : Failure)
  | interestRefused (failure : Failure)
  | pulling (key : FlowKey)
  | closed
  | unsupported (length : Nat)
  | unsupportedContent (bytes : Bytes)
  | accepted (peer : Endpoint)
  | rejected (failure : Failure)
  | removed (remaining : Nat)
  deriving DecidableEq

namespace SessionNotice

def level : SessionNotice → Level
  | connected | closedByDevice | closed => .info
  | framingLost _ | readError _ | writeError _ | interestRefused _ | unsupported _
  | rejected _ => .warn
  | pulling _ | accepted _ | removed _ => .debug
  | unsupportedContent _ => .trace

def text : SessionNotice → String
  | connected => "connected"
  | closedByDevice => "closed by the device"
  | framingLost failure => failure.message
  | readError failure => "read error: " ++ failure.message
  | writeError failure => "write error: " ++ failure.message
  | interestRefused failure => "cannot update registration: " ++ failure.message
  | pulling key => "pulling " ++ key.text
  | closed => "closed"
  | unsupported length => "dropping unsupported packet of " ++ toString length ++ " bytes"
  | unsupportedContent bytes => Text.hexDump bytes
  | accepted peer => "accepted from " ++ peer.text
  | rejected failure => "cannot register: " ++ failure.message
  | removed remaining => "removed, " ++ toString remaining ++ " sessions remaining"

end SessionNotice

def tokenText (token : Nat) : String := "Token(" ++ toString token ++ ")"

inductive Notice where
  | flow (key : FlowKey) (notice : FlowNotice)
  | session (id : Nat) (notice : SessionNotice)
  | incompletePacket (held declared : Nat)
  | interestChange (token : Nat) (before after : Option Interest)
  | deregisterFailed (token : Nat) (failure : Failure)
  | staleToken (token : Nat)
  | listening (endpoint : Endpoint)
  | pollFailed (failure : Failure)
  | acceptFailed (failure : Failure)
  | noDelayRefused (peer : Endpoint) (failure : Failure)
  | sweeping (sessions : Nat)
  deriving DecidableEq

namespace Notice

def level : Notice → Level
  | flow _ notice => notice.level
  | session _ notice => notice.level
  | incompletePacket .. | interestChange .. | staleToken _ | sweeping _ => .trace
  | deregisterFailed .. | noDelayRefused .. => .debug
  | listening _ => .info
  | pollFailed _ | acceptFailed _ => .error

def text : Notice → String
  | flow key notice => key.text ++ ": " ++ notice.text
  | session id notice => "session " ++ toString id ++ ": " ++ notice.text
  | incompletePacket held declared =>
    "incomplete packet: " ++ toString held ++ " of " ++ toString declared ++ " bytes buffered"
  | interestChange token before after =>
    tokenText token ++ ": interest " ++ Interest.optionText before ++ " -> " ++
      Interest.optionText after
  | deregisterFailed token failure =>
    tokenText token ++ ": error deregistering: " ++ failure.message
  | staleToken token => tokenText token ++ ": event for a closed socket"
  | listening endpoint => "relay listening on " ++ endpoint.text
  | pollFailed failure => "polling failed: " ++ failure.message
  | acceptFailed failure => "accept failed: " ++ failure.message
  | noDelayRefused peer failure =>
    "cannot set TCP_NODELAY for " ++ peer.text ++ ": " ++ failure.message
  | sweeping sessions => "sweeping " ++ toString sessions ++ " sessions for expired connections"

end Notice

end TunnelRelay
