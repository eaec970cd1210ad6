import TunnelRelay.Flow.Tcp.Handling
import TunnelRelay.Flow.Udp

/-!
# Flows

What a session asks of a flow without caring which protocol it carries.
-/

namespace TunnelRelay

inductive Flow where
  | tcp (flow : TcpFlow)
  | udp (flow : UdpFlow)

namespace Flow

variable {α σ : Type}

def key : Flow → FlowKey
  | tcp f => f.key
  | udp f => f.key

def socket : Flow → SocketId
  | tcp f => f.socket
  | udp f => f.socket

def isClosed : Flow → Bool
  | tcp f => f.isClosed
  | udp f => f.closed

/-- Whether the flow has been silent for too long. A TCP flow may be silent as long as it likes. -/
def isExpired (flow : Flow) (now : Nat) : Bool :=
  match flow with
  | tcp _ => false
  | udp f => f.isExpired now

/-- Opens a flow of the key's protocol. -/
def start (session : Nat) (key : FlowKey) (request : Packet) (config : Config) :
    Act α σ (Except Failure Flow) :=
  match key.protocol with
  | .tcp => return (← TcpFlow.start session key request config).map tcp
  | .udp => return (← UdpFlow.start session key request config).map udp

/-- Does what is written for the flow's protocol. -/
def byProtocol (onTcp : Act TcpFlow σ Unit) (onUdp : Act UdpFlow σ Unit) : Act Flow σ Unit := do
  match ← Act.self with
  | tcp f => Act.on (fun _ => f) (fun f _ => tcp f) onTcp
  | udp f => Act.on (fun _ => f) (fun f _ => udp f) onUdp

def disconnect : Act Flow σ Unit := byProtocol TcpFlow.close UdpFlow.disconnect

variable [Outlet σ]

def receive (packet : Packet) : Act Flow σ Unit :=
  byProtocol (TcpFlow.receive packet) (UdpFlow.receive packet)

def onReady (readiness : Readiness) : Act Flow σ Unit :=
  byProtocol (TcpFlow.onReady readiness) (UdpFlow.onReady readiness)

/-- Offers the packet that waits for room once more. -/
def pull : Act Flow σ Unit := byProtocol TcpFlow.pull UdpFlow.pull

end Flow

end TunnelRelay
