/-!
# Phases of a TCP flow

Towards the device a TCP flow is the passive end of a connection. Its phases carry the usual names.
-/

namespace TunnelRelay

inductive Phase where
  /-- No packet has been handled. -/
  | initial
  /-- The device asked for a connection, and the host is connecting. -/
  | synSent
  /-- The host has connected; the device has not confirmed yet. -/
  | synReceived
  | established
  /-- The device has finished sending. -/
  | closeWait
  /-- Both sides have finished; the device has not confirmed yet. -/
  | lastAck
  /-- The remote end has finished; the device has not confirmed yet. -/
  | finWait1
  /-- The remote end has finished, and the device has confirmed. -/
  | finWait2
  /-- Both sides finished at the same time. -/
  | closing
  | closed
  deriving DecidableEq, Repr

namespace Phase

def name : Phase → String
  | initial => "Initial"
  | synSent => "SynSent"
  | synReceived => "SynReceived"
  | established => "Established"
  | closeWait => "CloseWait"
  | lastAck => "LastAck"
  | finWait1 => "FinWait1"
  | finWait2 => "FinWait2"
  | closing => "Closing"
  | closed => "Closed"

/-- Whether the device may send payload in this phase. -/
def takesPayload : Phase → Bool
  | established | finWait1 | finWait2 => true
  | _ => false

/-- Whether data may be sent to the device in this phase. -/
def sendsPayload : Phase → Bool
  | established | closeWait => true
  | _ => false

def isConnecting : Phase → Bool
  | initial | synSent => true
  | _ => false

end Phase

end TunnelRelay
