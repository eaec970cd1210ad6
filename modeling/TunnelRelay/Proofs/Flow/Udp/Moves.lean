import TunnelRelay.Flow.Udp
import TunnelRelay.Proofs.Flow.Tcp.Moves
import TunnelRelay.Proofs.SocketCalls

/-!
# Moves of a UDP flow

As with TCP, whatever a UDP flow does is a sequence of moves, each labelled by what the device, the
host and the outlet contributed.
-/

namespace TunnelRelay

namespace UdpFlow

inductive Stimulus where
  | datagram (payload : Bytes)
  | disconnect
  /-- Readiness of the socket, room on the way out, or a packet without payload to carry. -/
  | other

inductive Ending where
  | sendError (datagram : Bytes) (kind : ErrorKind)
  | receiveError (size : Nat) (kind : ErrorKind)
  /-- The poller refused the call. -/
  | refused (call : Event)
  | disconnected

inductive Mark where
  | stored (payload : Bytes)
  /-- There was no room for the datagram. -/
  | dropped (payload : Bytes)
  | forwarded (datagram : Bytes)
  | unsent (datagram : Bytes) (kind : ErrorKind)
  /-- The socket had nothing for now. -/
  | missed (size : Nat) (kind : ErrorKind)
  | delivered (size : Nat) (datagram : Bytes) (sent : Sent)
  /-- The packet that waited was offered again. -/
  | retried (sent : Sent)
  /-- The poller was told another interest. -/
  | told (call : Event)
  | closed (ending : Ending) (call : Option Event)

def Ending.calls (socket : SocketId) : Ending → List Event
  | .sendError datagram kind => [.send socket datagram.length (.error kind)]
  | .receiveError size kind => [.receive socket size (.error kind)]
  | .refused call => [call]
  | .disconnected => []

def Mark.calls (f : UdpFlow) : Mark → List Event
  | .stored _ | .dropped _ => []
  | .forwarded datagram => [.send f.socket datagram.length (.ok datagram)]
  | .unsent datagram kind => [.send f.socket datagram.length (.error kind)]
  | .missed size kind => [.receive f.socket size (.error kind)]
  | .delivered size datagram sent =>
    [.receive f.socket size (.ok datagram), sent.call] ++ if sent.taken then [] else [.await f.key]
  | .retried sent => [sent.call] ++ if sent.taken then [] else [.await f.key]
  | .told call => [call]
  | .closed ending call => ending.calls f.socket ++ call.toList

def Mark.sent? : Mark → Option Sent
  | delivered _ _ sent | retried sent => some sent
  | _ => none

/-- The flow is ready to receive a datagram of up to `size` bytes, with this reply started. -/
structure Receives (f : UdpFlow) (size : Nat) (reply : Reply) : Prop where
  isOpen : f.closed = false
  idle : f.pending = false
  started : f.reply.reserve f.reply.maxPayload = .ok (size, reply)

/-- The flow offers its oldest datagram to the socket. -/
structure Sends (f : UdpFlow) (datagram : Bytes) : Prop where
  isOpen : f.closed = false
  front_eq : f.ring.front = .ok (some datagram)

/-- The flow `f` comes to its end, in the state `g`. -/
inductive Ends (stimulus : Stimulus) (f : UdpFlow) : Ending → UdpFlow → Prop where
  | sendError {datagram : Bytes} (sends : f.Sends datagram) {kind : ErrorKind}
      (failed : kind ≠ .wouldBlock ∧ kind ≠ .interrupted) :
      Ends stimulus f (.sendError datagram kind) f
  | receiveError {size : Nat} {reply : Reply} (receives : f.Receives size reply) {kind : ErrorKind}
      (failed : kind ≠ .wouldBlock ∧ kind ≠ .interrupted) :
      Ends stimulus f (.receiveError size kind) { f with reply }
  | refused (changed : f.registration.interest ≠ f.wanted) (kind : ErrorKind) :
      Ends stimulus f (.refused (f.registration.pollerCall f.socket f.wanted (some kind))) f
  | disconnected (asked : stimulus = .disconnect) : Ends stimulus f .disconnected f

structure Stage (σ : Type) where
  flow : UdpFlow
  registry : Registry
  out : σ

variable {σ : Type} [Outlet σ]

def afterOffer (f : UdpFlow) (taken : Bool) (out : σ) : σ :=
  if taken then out else Outlet.await f.key out

inductive Move (stimulus : Stimulus) (now : Nat) : Stage σ → Mark → Stage σ → Prop where
  | stored {f : UdpFlow} {r : Registry} {out : σ} {payload : Bytes} {ring : DatagramRing}
      (received : stimulus = .datagram payload) (isOpen : f.closed = false)
      (pushed : f.ring.push payload = .ok (true, ring)) :
      Move stimulus now ⟨f, r, out⟩ (.stored payload) ⟨{ f with idleSince := now, ring }, r, out⟩
  | dropped {f : UdpFlow} {r : Registry} {out : σ} {payload : Bytes} {ring : DatagramRing}
      (received : stimulus = .datagram payload) (isOpen : f.closed = false)
      (pushed : f.ring.push payload = .ok (false, ring)) :
      Move stimulus now ⟨f, r, out⟩ (.dropped payload) ⟨{ f with idleSince := now, ring }, r, out⟩
  | forwarded {f : UdpFlow} {r : Registry} {out : σ} {datagram : Bytes} {ring : DatagramRing}
      (sends : f.Sends datagram) (popped : f.ring.pop = .ok ring) :
      Move stimulus now ⟨f, r, out⟩ (.forwarded datagram) ⟨{ f with ring, idleSince := now }, r, out⟩
  | unsent {f : UdpFlow} {r : Registry} {out : σ} {datagram : Bytes} (sends : f.Sends datagram)
      {kind : ErrorKind} (waits : kind = .wouldBlock ∨ kind = .interrupted) :
      Move stimulus now ⟨f, r, out⟩ (.unsent datagram kind) ⟨f, r, out⟩
  | missed {f : UdpFlow} {r : Registry} {out : σ} {size : Nat} {reply : Reply}
      (receives : f.Receives size reply) {kind : ErrorKind}
      (waits : kind = .wouldBlock ∨ kind = .interrupted) :
      Move stimulus now ⟨f, r, out⟩ (.missed size kind) ⟨{ f with reply }, r, out⟩
  | delivered {f : UdpFlow} {r : Registry} {out out' : σ} {size : Nat} {reply : Reply}
      (receives : f.Receives size reply) {datagram : Bytes} {reply' reply'' : Reply} {sent : Sent}
      (committed : reply.commit datagram datagram.length = .ok reply')
      (completed : reply'.completeData = .ok (sent.packet, reply''))
      (offered : Outlet.offer sent.packet.bytes out = .ok (sent.taken, out')) :
      Move stimulus now ⟨f, r, out⟩ (.delivered size datagram sent)
        ⟨{ f with reply := reply'', idleSince := now, pending := !sent.taken }, r,
          f.afterOffer sent.taken out'⟩
  | retried {f : UdpFlow} {r : Registry} {out out' : σ} (isOpen : f.closed = false)
      (pending : f.pending = true) {sent : Sent} (latest : f.reply.latestData = .ok sent.packet)
      (offered : Outlet.offer sent.packet.bytes out = .ok (sent.taken, out')) :
      Move stimulus now ⟨f, r, out⟩ (.retried sent)
        ⟨{ f with pending := !sent.taken }, r, f.afterOffer sent.taken out'⟩
  | told {f : UdpFlow} {r : Registry} {out : σ} (isOpen : f.closed = false)
      (changed : f.registration.interest ≠ f.wanted) :
      Move stimulus now ⟨f, r, out⟩ (.told (f.registration.pollerCall f.socket f.wanted none))
        ⟨{ f with registration := f.registration.told f.wanted none }, r, out⟩
  | closed {f g : UdpFlow} {r : Registry} {out : σ} (isOpen : f.closed = false) {ending : Ending}
      (ends : Ends stimulus f ending g) {registration : Registration} {call : Option Event}
      (cancels : g.registration.Cancels g.socket registration call) :
      Move stimulus now ⟨f, r, out⟩ (.closed ending call)
        ⟨{ g with closed := true, registration }, r.erase g.registration.token, out⟩

structure Step where
  before : UdpFlow
  mark : Mark
  after : UdpFlow

def calls (steps : List Step) : List Event := steps.flatMap fun step => step.mark.calls step.before

theorem calls_append (first second : List Step) :
    calls (first ++ second) = calls first ++ calls second := List.flatMap_append

inductive Path (stimulus : Stimulus) :
    Scene UdpFlow σ → List Step → Scene UdpFlow σ → Prop where
  | quiet {s : Scene UdpFlow σ} {host : Host} (h : s.host.After [] host) :
      Path stimulus s [] { s with host }
  | move {s : Scene UdpFlow σ} {mark : Mark} {g : UdpFlow} {r : Registry} {out : σ} {host : Host}
      (move : Move stimulus s.host.clock ⟨s.self, s.registry, s.out⟩ mark ⟨g, r, out⟩)
      (called : s.host.After (mark.calls s.self) host) :
      Path stimulus s [⟨s.self, mark, g⟩] ⟨g, r, out, host⟩
  | append {s t u : Scene UdpFlow σ} {first second : List Step} (h : Path stimulus s first t)
      (h' : Path stimulus t second u) : Path stimulus s (first ++ second) u

variable {stimulus : Stimulus} {s t : Scene UdpFlow σ} {steps : List Step}

theorem Path.after (h : Path stimulus s steps t) : s.host.After (calls steps) t.host := by
  induction h with
  | quiet h => exact h
  | move _ called => simpa [calls] using called
  | append _ _ ih ih' => simpa [calls] using ih.trans ih'

/-- What every move preserves, given the moves before, a path preserves. -/
theorem Path.invariant {I : List Step → UdpFlow → Prop}
    (preserved : ∀ {now : Nat} {journal : List Step} {f g : UdpFlow} {r r' : Registry} {out out' : σ}
      {mark : Mark}, I journal f → Move stimulus now ⟨f, r, out⟩ mark ⟨g, r', out'⟩ →
      I (journal ++ [⟨f, mark, g⟩]) g)
    (h : Path stimulus s steps t) (journal : List Step) (hs : I journal s.self) :
    I (journal ++ steps) t.self := by
  induction h generalizing journal with
  | quiet => simpa using hs
  | move move _ => exact preserved hs move
  | append _ _ ih ih' =>
    rw [← List.append_assoc]
    exact ih' _ (ih _ hs)

end UdpFlow

end TunnelRelay
