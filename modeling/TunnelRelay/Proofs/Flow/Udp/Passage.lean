import TunnelRelay.Proofs.Flow.Udp.Moves
import TunnelRelay.Proofs.Ring.Records

/-!
# Passages of a UDP flow

As with TCP, a UDP flow reacts piece by piece, and no piece leaves work behind that the flow would have
to be woken for. Where datagrams are sent, they are sent until none is left or the socket is blocked.
Where they are received, they are received until there is none for now or a packet waits for room.
-/

namespace TunnelRelay

namespace Event

def sendResult? : Event → Option (Except ErrorKind Bytes)
  | send _ _ result => some result
  | _ => none

def receiveResult? : Event → Option (Except ErrorKind Bytes)
  | receive _ _ result => some result
  | _ => none

end Event

namespace Registration

variable {r : Registration} {socket : SocketId}

theorem sendResult?_pollerCall (wanted : Option Interest) (outcome : Outcome) :
    (r.pollerCall socket wanted outcome).sendResult? = none := by
  unfold pollerCall
  split <;> rfl

theorem receiveResult?_pollerCall (wanted : Option Interest) (outcome : Outcome) :
    (r.pollerCall socket wanted outcome).receiveResult? = none := by
  unfold pollerCall
  split <;> rfl

end Registration

theorem DatagramRing.isEmpty_of_front_eq_none {r : DatagramRing} (h : r.front = .ok none) :
    r.isEmpty = true := by
  unfold front at h
  split at h
  · assumption
  · simp only [checked_bind_eq_ok] at h
    obtain ⟨length, -, h⟩ := h
    cases read : r.cells.read (r.tail + recordHeader) (r.tail + recordHeader + length) with
    | error fault => simp [read] at h
    | ok bytes => simp [read] at h

namespace UdpFlow

def lastSend (steps : List Step) : Option (Except ErrorKind Bytes) :=
  ((calls steps).filterMap Event.sendResult?).getLast?

def lastReceive (steps : List Step) : Option (Except ErrorKind Bytes) :=
  ((calls steps).filterMap Event.receiveResult?).getLast?

/-- All that the device sent was sent on, or the socket is blocked. -/
def Settled (journal : List Step) (f : UdpFlow) : Prop :=
  f.closed = false → f.ring.isEmpty = false → lastSend journal = some (.error .wouldBlock)

/-- The flow must not receive, or there was nothing to receive for now. -/
def ReadOut (journal : List Step) (f : UdpFlow) : Prop :=
  f.closed = false → f.pending = false → lastReceive journal = some (.error .wouldBlock)

def Mark.isUpstream : Mark → Bool
  | stored _ | forwarded _ | unsent _ _ | closed (.sendError _ _) _ => true
  | _ => false

def Mark.isDownstream : Mark → Bool
  | missed _ _ | delivered _ _ _ | retried _ | closed (.receiveError _ _) _ => true
  | _ => false

theorem lastSend_append (first second : List Step) :
    lastSend (first ++ second) = (lastSend second).or (lastSend first) := by
  simp [lastSend, calls, List.getLast?_append]

theorem lastReceive_append (first second : List Step) :
    lastReceive (first ++ second) = (lastReceive second).or (lastReceive first) := by
  simp [lastReceive, calls, List.getLast?_append]

theorem Settled.append {f : UdpFlow} {second : List Step} (first : List Step) (h : Settled second f) :
    Settled (first ++ second) f := by
  intro isOpen waiting
  simp [lastSend_append, h isOpen waiting]

theorem ReadOut.append {f : UdpFlow} {second : List Step} (first : List Step) (h : ReadOut second f) :
    ReadOut (first ++ second) f := by
  intro isOpen idle
  simp [lastReceive_append, h isOpen idle]

def Upstream (steps : List Step) : Prop := ∀ step ∈ steps, step.mark.isUpstream = true

def Downstream (steps : List Step) : Prop := ∀ step ∈ steps, step.mark.isDownstream = true

theorem Upstream.append {first second : List Step} (h : Upstream first) (h' : Upstream second) :
    Upstream (first ++ second) := fun step hs => (List.mem_append.1 hs).elim (h step) (h' step)

theorem Downstream.append {first second : List Step} (h : Downstream first) (h' : Downstream second) :
    Downstream (first ++ second) := fun step hs => (List.mem_append.1 hs).elim (h step) (h' step)

variable {σ : Type} [Outlet σ] {stimulus : Stimulus} {s t : Scene UdpFlow σ} {steps : List Step}

inductive Passage (stimulus : Stimulus) :
    Scene UdpFlow σ → List Step → Scene UdpFlow σ → Prop where
  | quiet {s : Scene UdpFlow σ} {host : Host} (h : s.host.After [] host) :
      Passage stimulus s [] { s with host }
  /-- A move that leaves the datagrams alone. -/
  | aside {s : Scene UdpFlow σ} {mark : Mark} {g : UdpFlow} {r : Registry} {out : σ} {host : Host}
      (move : Move stimulus s.host.clock ⟨s.self, s.registry, s.out⟩ mark ⟨g, r, out⟩)
      (called : s.host.After (mark.calls s.self) host) (notUp : mark.isUpstream = false)
      (notDown : mark.isDownstream = false) : Passage stimulus s [⟨s.self, mark, g⟩] ⟨g, r, out, host⟩
  /-- Datagrams are received as far as it can be. -/
  | receiving {s t : Scene UdpFlow σ} {steps : List Step} (path : Path stimulus s steps t)
      (downstream : Downstream steps) (readOut : ReadOut steps t.self) : Passage stimulus s steps t
  /-- Datagrams are sent as far as it can be. -/
  | sending {s t : Scene UdpFlow σ} {steps : List Step} (path : Path stimulus s steps t)
      (upstream : Upstream steps) (settled : Settled steps t.self) : Passage stimulus s steps t
  | append {s t u : Scene UdpFlow σ} {first second : List Step} (h : Passage stimulus s first t)
      (h' : Passage stimulus t second u) : Passage stimulus s (first ++ second) u

theorem Passage.path (h : Passage stimulus s steps t) : Path stimulus s steps t := by
  induction h with
  | quiet h => exact .quiet h
  | aside move called _ _ => exact .move move called
  | receiving path _ _ => exact path
  | sending path _ _ => exact path
  | append _ _ ih ih' => exact ih.append ih'

/-- What every move of the given kind preserves, a path of such moves preserves. -/
theorem Path.invariant_of {p : Step → Prop} {I : List Step → UdpFlow → Prop}
    (preserved : ∀ {now : Nat} {journal : List Step} {f g : UdpFlow} {r r' : Registry} {out out' : σ}
      {mark : Mark}, I journal f → Move stimulus now ⟨f, r, out⟩ mark ⟨g, r', out'⟩ →
      p ⟨f, mark, g⟩ → I (journal ++ [⟨f, mark, g⟩]) g)
    (h : Path stimulus s steps t) (kind : ∀ step ∈ steps, p step) (journal : List Step)
    (hs : I journal s.self) : I (journal ++ steps) t.self := by
  induction h generalizing journal with
  | quiet => simpa using hs
  | move move _ => exact preserved hs move (kind _ List.mem_cons_self)
  | append _ _ ih ih' =>
    rw [← List.append_assoc]
    exact ih' (fun step hs => kind step (List.mem_append_right _ hs)) _
      (ih (fun step hs => kind step (List.mem_append_left _ hs)) _ hs)

end UdpFlow

end TunnelRelay
