import TunnelRelay.Proofs.Flow.Readiness
import TunnelRelay.Proofs.Flow.Tcp.ControlState
import TunnelRelay.Proofs.Flow.Tcp.DeviceWindow
import TunnelRelay.Proofs.Flow.Tcp.EndNumber
import TunnelRelay.Proofs.Flow.Tcp.HandedOver
import TunnelRelay.Proofs.Flow.Tcp.WindowPromise
import TunnelRelay.Proofs.Flow.Tcp.WindowReopened
import TunnelRelay.Proofs.Flow.Udp.Datagrams
import TunnelRelay.Proofs.FlowTable.DeviceReset
import TunnelRelay.Proofs.Header.Independence
import TunnelRelay.Proofs.Packet.Checksums
import TunnelRelay.Proofs.Reactor.Schedule
import TunnelRelay.Proofs.Reply.Responses
import TunnelRelay.Proofs.Ring.ByteQueue
import TunnelRelay.Proofs.Session.Interest
import TunnelRelay.Proofs.Session.Output
import TunnelRelay.Proofs.Session.Pulling
import TunnelRelay.Proofs.Session.Wakeup
