import TunnelRelay.Proofs.Flow.Tcp.Moves
import TunnelRelay.Proofs.Ring.Stream
import TunnelRelay.Proofs.SocketCalls

/-!
# Courses of a TCP flow

A reaction of a TCP flow is a course of pieces, each of which leaves no work behind that the flow would
have to be woken for. Where the socket is read, it is read until there is nothing to read for now. Where
the ring is written, it is written until nothing is left or a write was refused, and only then is the
device told of the room. What holds between two reactions is read off the pieces.
-/

namespace TunnelRelay

/-- What a read from a stream came to. -/
def Event.readResult? : Event → Option (Except ErrorKind Bytes)
  | read _ _ result => some result
  | _ => none

theorem Registration.readResult?_pollerCall {r : Registration} {socket : SocketId}
    (wanted : Option Interest) (outcome : Outcome) :
    (r.pollerCall socket wanted outcome).readResult? = none := by
  unfold pollerCall
  split <;> rfl

namespace TcpFlow

def lastWrite (steps : List Step) : Option (Except ErrorKind Bytes) :=
  ((calls steps).filterMap Event.writeResult?).getLast?

def lastRead (steps : List Step) : Option (Except ErrorKind Bytes) :=
  ((calls steps).filterMap Event.readResult?).getLast?

/-- The write took nothing, and is not tried again at once. -/
def Refused (result : Except ErrorKind Bytes) : Prop :=
  result = .ok [] ∨ ∃ kind, result = .error kind ∧ kind ≠ .interrupted

/-- All that the device sent was written, or the last write was refused. -/
def Settled (journal : List Step) (f : TcpFlow) : Prop :=
  f.ring.isEmpty = true ∨ ∃ result, lastWrite journal = some result ∧ Refused result

/-- The flow must not read the socket, or the last read found nothing for now. -/
def ReadOut (journal : List Step) (f : TcpFlow) : Prop :=
  f.mayRead = true → f.roomAtDevice ≠ 0 → lastRead journal = some (.error .wouldBlock)

/-- Once all that the device sent is written, the socket has been told of its end. -/
def HalfClosed (f : TcpFlow) : Prop :=
  f.phase ≠ .closed → f.deviceClosed = true → f.ring.isEmpty = true → f.writeShut = true

/-- A flow that granted no window last has no room. -/
def Aware (f : TcpFlow) : Prop := f.advertised = 0 → f.ring.remaining = 0

/-- Whether the move belongs to the stream to the device: a confirmation, or a read and what follows. -/
def Mark.isDownstream : Mark → Bool
  | acknowledged _ | missed _ _ | delivered _ _ _ | retried _ | exhausted _ _
  | closed (.confirmed _) _ | closed (.reset (.readError _ _) _) _ => true
  | _ => false

/-- Whether the move belongs to the stream of the device: payload that is taken, or a write and what
follows. -/
def Mark.isUpstream : Mark → Bool
  | took _ _ | wrote _ _ | blocked _ _ | closed (.reset (.writeError _ _) _) _ => true
  | _ => false

/-- Whether the move leaves both streams alone. -/
def Mark.isAside : Mark → Bool
  | opened _ _ | reopened _ | unconnected _ | connected _ | widened _ | shut _ | told _ => true
  | closed (.confirmed _) _ | closed (.reset (.readError _ _) _) _
  | closed (.reset (.writeError _ _) _) _ => false
  | closed _ _ => true
  | _ => false

def Mark.isEnd : Mark → Bool
  | ended _ _ | closed (.finished _ _) _ => true
  | _ => false

/-- Whether bytes were written. -/
def Mark.isWrite : Mark → Bool
  | wrote _ _ => true
  | _ => false

/-- Whether a packet was built that tells the device of room, if only by ending the flow. -/
def Mark.isInvitation : Mark → Bool
  | widened _ | closed (.reset _ _) _ => true
  | _ => false

def Downstream (steps : List Step) : Prop := ∀ step ∈ steps, step.mark.isDownstream = true

theorem downstream_nil : Downstream [] := fun _ h => absurd h List.not_mem_nil

theorem downstream_singleton {step : Step} (h : step.mark.isDownstream = true) :
    Downstream [step] := by
  intro step' hs
  rwa [List.mem_singleton.1 hs]

theorem Downstream.append {first second : List Step} (h : Downstream first)
    (h' : Downstream second) : Downstream (first ++ second) := fun step hs =>
  (List.mem_append.1 hs).elim (h step) (h' step)

theorem lastWrite_append (first second : List Step) :
    lastWrite (first ++ second) = (lastWrite second).or (lastWrite first) := by
  simp [lastWrite, calls, List.getLast?_append]

theorem lastRead_append (first second : List Step) :
    lastRead (first ++ second) = (lastRead second).or (lastRead first) := by
  simp [lastRead, calls, List.getLast?_append]

theorem Settled.append {f : TcpFlow} {second : List Step} (first : List Step)
    (h : Settled second f) : Settled (first ++ second) f := by
  refine h.imp_right ?_
  rintro ⟨result, last, refused⟩
  exact ⟨result, by simp [lastWrite_append, last], refused⟩

theorem ReadOut.append {f : TcpFlow} {second : List Step} (first : List Step)
    (h : ReadOut second f) : ReadOut (first ++ second) f := by
  intro may room
  simp [lastRead_append, h may room]

/-- Each of the steps that satisfies the first condition comes before one that satisfies the other. -/
def Followed (p q : Step → Prop) : List Step → Prop
  | [] => True
  | step :: rest => (p step → ∃ later ∈ rest, q later) ∧ Followed p q rest

namespace Followed

variable {p q : Step → Prop} {first second : List Step}

/-- It is enough that what comes last answers for all that comes before. -/
theorem of_tail (h : ∀ step ∈ first, p step → ∃ later ∈ second, q later) (h' : Followed p q second) :
    Followed p q (first ++ second) := by
  induction first with
  | nil => exact h'
  | cons step rest ih =>
    refine ⟨fun hp => ?_, ih fun other ho => h other (List.mem_cons_of_mem _ ho)⟩
    obtain ⟨later, listed, hq⟩ := h step List.mem_cons_self hp
    exact ⟨later, List.mem_append_right _ listed, hq⟩

theorem of_forall_not (h : ∀ step ∈ first, ¬p step) : Followed p q first := by
  induction first with
  | nil => trivial
  | cons step rest ih =>
    exact ⟨fun hp => absurd hp (h step List.mem_cons_self),
      ih fun other ho => h other (List.mem_cons_of_mem _ ho)⟩

theorem append (h : Followed p q first) (h' : Followed p q second) :
    Followed p q (first ++ second) := by
  induction first with
  | nil => exact h'
  | cons step rest ih =>
    refine ⟨fun hp => ?_, ih h.2⟩
    obtain ⟨later, listed, hq⟩ := h.1 hp
    exact ⟨later, List.mem_append_left _ listed, hq⟩

theorem exists_later {step : Step} (h : Followed p q (first ++ step :: second)) (hp : p step) :
    ∃ later ∈ second, q later := by
  induction first with
  | nil => exact h.1 hp
  | cons _ rest ih => exact ih h.2

end Followed

/-- Bytes were written by a flow that had granted no window. -/
def Step.Relieves (step : Step) : Prop :=
  step.mark.isWrite = true ∧ step.before.advertised = 0

/-- The device was told of room that there is. -/
def Step.Invites (step : Step) : Prop :=
  step.mark.isInvitation = true ∧ 0 < step.after.ring.remaining

variable {σ : Type} [Outlet σ] {stimulus : Stimulus} {s t : Scene TcpFlow σ} {steps : List Step}

/-- The ring is written as far as it can be, the device is told of the room if it was granted none, and
the socket of the end of the stream if nothing is left. -/
structure Drains (stimulus : Stimulus) (s : Scene TcpFlow σ) (steps : List Step)
    (t : Scene TcpFlow σ) : Prop where
  path : Path stimulus s steps t
  upstream : ∀ step ∈ steps, step.mark.isUpstream = true ∨ step.mark.isAside = true
  settled : Settled steps t.self
  halfClosed : t.self.HalfClosed
  aware : (∃ step ∈ steps, step.mark.isWrite = true) → t.self.Aware
  invited : s.self.ring.Sound → Followed Step.Relieves Step.Invites steps

/-- What a flow does in reaction to a stimulus, piece by piece. -/
inductive Course (stimulus : Stimulus) :
    Scene TcpFlow σ → List Step → Scene TcpFlow σ → Prop where
  | quiet {s : Scene TcpFlow σ} {host : Host} (h : s.host.After [] host) :
      Course stimulus s [] { s with host }
  /-- A move that leaves both streams alone. -/
  | aside {s : Scene TcpFlow σ} {mark : Mark} {g : TcpFlow} {r : Registry} {out : σ} {host : Host}
      (move : Move stimulus ⟨s.self, s.registry, s.out⟩ mark ⟨g, r, out⟩)
      (called : s.host.After (mark.calls s.self) host) (aside : mark.isAside = true) :
      Course stimulus s [⟨s.self, mark, g⟩] ⟨g, r, out, host⟩
  /-- The socket is read as far as it can be. -/
  | reading {s t : Scene TcpFlow σ} {steps : List Step} (path : Path stimulus s steps t)
      (downstream : Downstream steps) (readOut : ReadOut steps t.self) : Course stimulus s steps t
  /-- The ring is written as far as it can be. -/
  | writing {s t : Scene TcpFlow σ} {steps : List Step} (drains : Drains stimulus s steps t) :
      Course stimulus s steps t
  /-- The end of the device's stream is noted, and passed on if all before it was written. Of a flow
  that the device has not confirmed yet it is the end of a segment without confirmation. -/
  | ending {s t : Scene TcpFlow σ} {segment : Segment} {sent : Sent} {g : TcpFlow} {r : Registry}
      {out : σ} {host : Host} {steps : List Step}
      (move : Move stimulus ⟨s.self, s.registry, s.out⟩ (.ended segment sent) ⟨g, r, out⟩)
      (called : s.host.After [sent.call] host)
      (unconfirmed : s.self.phase = .synReceived → segment.flags.has .ack = false)
      (rest : Course stimulus ⟨g, r, out, host⟩ steps t) (halfClosed : t.self.HalfClosed) :
      Course stimulus s (⟨s.self, .ended segment sent, g⟩ :: steps) t
  | append {s t u : Scene TcpFlow σ} {first second : List Step} (h : Course stimulus s first t)
      (h' : Course stimulus t second u) : Course stimulus s (first ++ second) u

theorem Course.path (h : Course stimulus s steps t) : Path stimulus s steps t := by
  induction h with
  | quiet h => exact .quiet h
  | aside move called _ => exact .move move called
  | reading path _ _ => exact path
  | writing drains => exact drains.path
  | ending move called _ _ _ ih => exact (Path.move move called).append ih
  | append _ _ ih ih' => exact ih.append ih'

/-- What every move of the given kind preserves, a path of such moves preserves. -/
theorem Path.invariant_of {p : Step → Prop} {I : List Step → TcpFlow → Prop}
    (preserved : ∀ {journal : List Step} {f g : TcpFlow} {r r' : Registry} {out out' : σ}
      {mark : Mark}, I journal f → Move stimulus ⟨f, r, out⟩ mark ⟨g, r', out'⟩ → p ⟨f, mark, g⟩ →
      I (journal ++ [⟨f, mark, g⟩]) g)
    (h : Path stimulus s steps t) (kind : ∀ step ∈ steps, p step) (journal : List Step)
    (hs : I journal s.self) : I (journal ++ steps) t.self := by
  induction h generalizing journal with
  | quiet => simpa using hs
  | move move _ => exact preserved hs move (kind _ List.mem_cons_self)
  | append _ _ ih ih' =>
    rw [← List.append_assoc]
    exact ih' (fun step hs => kind step (List.mem_append_right _ hs)) _
      (ih (fun step hs => kind step (List.mem_append_left _ hs)) _ hs)

variable {f g : TcpFlow} {r r' : Registry} {out out' : σ} {mark : Mark} {journal : List Step}

/-- Where bytes were written there is room. -/
theorem Writes.remaining_pos {front bytes : Bytes} (h : f.Writes front) (sound : f.ring.Sound)
    (nonempty : bytes ≠ []) (taken : bytes = front.take bytes.length) :
    0 < (f.ring.drop bytes.length).remaining := by
  obtain ⟨-, -, shorter⟩ := StreamRing.front_eq sound h.nonempty h.front_eq
  have fits : bytes.length ≤ f.ring.length := by
    rw [taken]
    exact Nat.le_trans (List.length_take_le' ..) shorter
  have some := List.length_pos_iff.2 nonempty
  have length := StreamRing.length_drop sound fits
  have before := sound.length_add_remaining
  have after := sound.drop (n := bytes.length).length_add_remaining
  rw [StreamRing.capacity_drop] at after
  omega

/-- Whoever grants the room that there is knows it by the window. -/
theorem advertised_eq_zero_iff (h : f.advertised = f.windowToGrant.toUInt16) :
    f.advertised = 0 ↔ f.ring.remaining = 0 := by
  have small : f.windowToGrant < 2 ^ 16 := by unfold windowToGrant; omega
  have whole : f.windowToGrant.toUInt16.toNat = f.windowToGrant := Nat.mod_eq_of_lt small
  rw [h, ← UInt16.toNat_inj, whole, UInt16.toNat_zero, windowToGrant]
  omega

/-- Whoever prepares a packet grants the room that there is. -/
theorem Emits.advertised_eq {flags : TcpFlags} {sent : Sent} (h : Emits flags f out sent g out') :
    g.advertised = g.windowToGrant.toUInt16 := by
  obtain ⟨reply, -, rfl⟩ := h.built
  rfl

theorem Reads.advertised_eq {size : Nat} (h : f.Reads size g) :
    g.advertised = g.windowToGrant.toUInt16 := by
  obtain ⟨reply, -, rfl⟩ := h.started
  rfl

theorem Emits.aware {flags : TcpFlags} {sent : Sent} (h : Emits flags f out sent g out') :
    g.Aware := (advertised_eq_zero_iff h.advertised_eq).1

theorem Mark.not_isUpstream_of_isAside (h : mark.isAside = true) : mark.isUpstream = false := by
  cases mark with
  | closed ending call =>
    cases ending with
    | reset cause sent => cases cause <;> first | rfl | cases h
    | _ => rfl
  | _ => first | rfl | cases h

theorem Mark.not_isDownstream_of_isAside (h : mark.isAside = true) : mark.isDownstream = false := by
  cases mark with
  | closed ending call =>
    cases ending with
    | reset cause sent => cases cause <;> first | rfl | cases h
    | _ => first | rfl | cases h
  | _ => first | rfl | cases h

theorem Mark.not_isWrite_of_isAside (h : mark.isAside = true) : mark.isWrite = false := by
  cases mark <;> first | rfl | cases h

theorem Mark.not_isEnd_of_isDownstream (h : mark.isDownstream = true) : mark.isEnd = false := by
  cases mark with
  | closed ending call => cases ending <;> first | rfl | cases h
  | _ => first | rfl | cases h

theorem Mark.not_isWrite_of_isDownstream (h : mark.isDownstream = true) :
    mark.isWrite = false := by
  cases mark <;> first | rfl | cases h

theorem Mark.not_isUpstream_of_isDownstream (h : mark.isDownstream = true) :
    mark.isUpstream = false := by
  cases mark with
  | closed ending call =>
    cases ending with
    | reset cause sent => cases cause <;> first | rfl | cases h
    | _ => rfl
  | _ => first | rfl | cases h

theorem Cancels.silent {registration : Registration} {call : Option Event}
    (h : f.Cancels registration call) : call.toList.filterMap Event.writeResult? = [] := by
  cases h <;> rfl

theorem Resets.ring_eq {cause : Cause} (h : f.Resets stimulus cause g) : g.ring = f.ring := by
  cases h with
  | readError reads _ => exact reads.same.ring_eq
  | _ => rfl

theorem Ends.ring_eq {ending : Ending} (h : Ends stimulus f out ending g out') :
    g.ring = f.ring := by
  cases h with
  | finished _ _ _ emits => exact emits.same.ring_eq
  | reset resets emits => exact emits.same.ring_eq.trans resets.ring_eq
  | _ => rfl

/-- What is not part of the stream of the device writes nothing and leaves the ring alone. -/
theorem Move.unwritten (move : Move stimulus ⟨f, r, out⟩ mark ⟨g, r', out'⟩)
    (aside : mark.isUpstream = false) :
    (mark.calls f).filterMap Event.writeResult? = [] ∧ g.ring = f.ring := by
  cases move with
  | took | wrote | blocked => cases aside
  | connected _ emits => exact ⟨rfl, emits.same.ring_eq⟩
  | ended _ _ _ emits => exact ⟨rfl, emits.same.ring_eq⟩
  | missed reads _ => exact ⟨rfl, reads.same.ring_eq⟩
  | delivered reads _ _ _ _ _ =>
    refine ⟨?_, reads.same.ring_eq⟩
    simp only [Mark.calls]
    split <;> rfl
  | retried _ _ _ _ =>
    refine ⟨?_, rfl⟩
    simp only [Mark.calls]
    split <;> rfl
  | exhausted reads emits => exact ⟨rfl, emits.same.ring_eq.trans reads.same.ring_eq⟩
  | widened _ _ _ emits => exact ⟨rfl, emits.same.ring_eq⟩
  | told _ _ =>
    exact ⟨List.filterMap_cons_none (Registration.writeResult?_pollerCall _ _), rfl⟩
  | closed _ ends cancels =>
    refine ⟨?_, ends.ring_eq⟩
    rw [Mark.calls, List.filterMap_append, cancels.silent, List.append_nil]
    cases ends with
    | refused _ _ => exact List.filterMap_cons_none (Registration.writeResult?_pollerCall _ _)
    | reset resets _ =>
      cases resets with
      | writeError => cases aside
      | _ => rfl
    | _ => rfl
  | _ => exact ⟨rfl, rfl⟩

private theorem Settled.of_unwritten (h : Settled journal f)
    (move : Move stimulus ⟨f, r, out⟩ mark ⟨g, r', out'⟩) (aside : mark.isUpstream = false) :
    Settled (journal ++ [⟨f, mark, g⟩]) g := by
  obtain ⟨silent, ring⟩ := move.unwritten aside
  have none : lastWrite [⟨f, mark, g⟩] = none := by simp [lastWrite, calls, silent]
  simpa [Settled, ring, lastWrite_append, none] using h

/-- A course leaves the flow settled if it found it so. -/
theorem Course.settled (h : Course stimulus s steps t) (hs : Settled journal s.self) :
    Settled (journal ++ steps) t.self := by
  induction h generalizing journal with
  | quiet => simpa using hs
  | aside move _ aside => exact hs.of_unwritten move (Mark.not_isUpstream_of_isAside aside)
  | reading path downstream _ =>
    refine path.invariant_of (p := fun step => step.mark.isUpstream = false) ?_ ?_ journal hs
    · exact Settled.of_unwritten
    · exact fun step listed => Mark.not_isUpstream_of_isDownstream (downstream step listed)
  | writing drains => exact drains.settled.append _
  | ending move _ _ _ _ ih =>
    rw [← List.singleton_append, ← List.append_assoc]
    exact ih (hs.of_unwritten move rfl)
  | append _ _ ih ih' =>
    rw [← List.append_assoc]
    exact ih' (ih hs)

end TcpFlow

end TunnelRelay
