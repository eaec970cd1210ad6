import TunnelRelay.Flow.Tcp.Handling
import TunnelRelay.Proofs.Calls
import TunnelRelay.Proofs.Fault

/-!
# Moves of a TCP flow

Whatever a TCP flow does is a sequence of moves, each of them one change of the flow with the calls
that belong to it. A move is labelled by a mark, which says what the device, the host and the outlet
contributed. What holds after every move holds after every operation.
-/

namespace TunnelRelay

/-- A packet for the device, and whether it was taken. -/
structure Sent where
  packet : Packet
  taken : Bool

def Sent.call (sent : Sent) : Event := .offer sent.packet.bytes sent.taken

namespace Phase

/-- The phase after the device has confirmed, perhaps all that was sent. -/
def confirmed (phase : Phase) (all : Bool) : Phase :=
  match phase, all with
  | .synReceived, _ => .established
  | .finWait1, true => .finWait2
  | phase, _ => phase

def deviceFinished : Phase → Phase
  | .synReceived | .established => .closeWait
  | .finWait1 => .closing
  | phase => phase

def remoteFinished : Phase → Phase
  | .established => .finWait1
  | .closeWait => .lastAck
  | phase => phase

end Phase

namespace TcpFlow

/-- The header of the packets to come has been written. -/
def prepared (flags : TcpFlags) (f : TcpFlow) : TcpFlow :=
  let window := f.windowToGrant.toUInt16
  { f with
    advertised := window
    reply := f.reply.editTcp fun header =>
      (((header.setFlags flags).setSequence f.sequence).setAcknowledgement f.expected).setWindow
        window }

inductive Stimulus where
  | segment (segment : Segment)
  | disconnect
  /-- Readiness of the socket, room on the way out, or a packet that is none of the flow's. -/
  | other

/-- What a packet with this segment, or none, makes a flow do. -/
def Stimulus.ofSegment? : Option Segment → Stimulus
  | some found => .segment found
  | none => .other

inductive Cause where
  /-- The first packet asked for no connection. -/
  | noRequest (segment : Segment)
  /-- A packet asked for another connection. -/
  | request (segment : Segment)
  | connectError (error : PendingError)
  | noPeer (kind : ErrorKind)
  | readError (size : Nat) (kind : ErrorKind)
  | writeError (offered : Nat) (result : Except ErrorKind Bytes)

inductive Ending where
  | resetByDevice (segment : Segment)
  /-- The device confirmed the flow's end after its own. -/
  | confirmed (segment : Segment)
  /-- The device finished after it had confirmed the flow's end. -/
  | finished (segment : Segment) (sent : Sent)
  /-- The poller refused the call. -/
  | refused (call : Event)
  | disconnected
  | reset (cause : Cause) (sent : Sent)

/-- What a flow did in one move. -/
inductive Mark where
  /-- The device asked for a connection. -/
  | opened (segment : Segment) (initial : UInt32)
  /-- The device asked for it again. -/
  | reopened (segment : Segment)
  | unconnected (kind : ErrorKind)
  | connected (sent : Sent)
  /-- The device confirmed what it had received. -/
  | acknowledged (segment : Segment)
  /-- Payload of the device was taken. -/
  | took (segment : Segment) (sent : Sent)
  /-- The device finished sending. -/
  | ended (segment : Segment) (sent : Sent)
  /-- A read yielded nothing for now. -/
  | missed (size : Nat) (kind : ErrorKind)
  /-- A read yielded payload for the device. -/
  | delivered (size : Nat) (payload : Bytes) (sent : Sent)
  /-- The packet that waited was offered again. -/
  | retried (sent : Sent)
  /-- A read found the end of the stream. -/
  | exhausted (size : Nat) (sent : Sent)
  | wrote (offered : Nat) (bytes : Bytes)
  | blocked (offered : Nat) (kind : ErrorKind)
  /-- The device was told that there is room again. -/
  | widened (sent : Sent)
  | shut (outcome : Outcome)
  /-- The poller was told another interest. -/
  | told (call : Event)
  | closed (ending : Ending) (call : Option Event)

def Cause.calls (socket : SocketId) : Cause → List Event
  | .noRequest _ | .request _ => []
  | .connectError error => [.takeError socket error]
  | .noPeer kind => [.takeError socket .none, .peerAddress socket (some kind)]
  | .readError size kind => [.read socket size (.error kind)]
  | .writeError offered result => [.write socket offered result]

def Ending.calls (socket : SocketId) : Ending → List Event
  | .resetByDevice _ | .confirmed _ | .disconnected => []
  | .finished _ sent => [sent.call]
  | .refused call => [call]
  | .reset cause sent => cause.calls socket ++ [sent.call]

/-- The calls on the host that a move consists of, first ones first. -/
def Mark.calls (f : TcpFlow) : Mark → List Event
  | .opened _ _ | .reopened _ | .acknowledged _ => []
  | .unconnected kind => [.takeError f.socket .none, .peerAddress f.socket (some kind)]
  | .connected sent => [.takeError f.socket .none, .peerAddress f.socket none, sent.call]
  | .took _ sent | .ended _ sent | .widened sent => [sent.call]
  | .missed size kind => [.read f.socket size (.error kind)]
  | .delivered size payload sent =>
    [.read f.socket size (.ok payload), sent.call] ++ if sent.taken then [] else [.await f.key]
  | .retried sent => [sent.call] ++ if sent.taken then [] else [.await f.key]
  | .exhausted size sent => [.read f.socket size (.ok []), sent.call]
  | .wrote offered bytes => [.write f.socket offered (.ok bytes)]
  | .blocked offered kind => [.write f.socket offered (.error kind)]
  | .shut outcome => [.shutdownWrite f.socket outcome]
  | .told call => [call]
  | .closed ending call => ending.calls f.socket ++ call.toList

/-- The segment is the one that the device has to send next, and its flow is connected. -/
structure InOrder (f : TcpFlow) (segment : Segment) : Prop where
  connected : f.phase.isConnecting = false
  isOpen : f.phase ≠ .closed
  not_syn : segment.flags.has .syn = false
  not_rst : segment.flags.has .rst = false
  sequence_eq : segment.sequence = f.expected

/-- The segment ends the device's stream, and all that came before it was taken. -/
structure AtEnd (f : TcpFlow) (segment : Segment) : Prop where
  connected : f.phase.isConnecting = false
  isOpen : f.phase ≠ .closed
  not_syn : segment.flags.has .syn = false
  not_rst : segment.flags.has .rst = false
  fin : segment.flags.has .fin = true
  expected_eq : f.expected = segment.sequence + segment.payload.length.toUInt32

/-- The flows agree in everything but the packets to come and the window that was granted last. -/
structure SameState (f g : TcpFlow) : Prop where
  key_eq : g.key = f.key
  registration_eq : g.registration = f.registration
  ring_eq : g.ring = f.ring
  phase_eq : g.phase = f.phase
  sequence_eq : g.sequence = f.sequence
  expected_eq : g.expected = f.expected
  remoteClosed_eq : g.remoteClosed = f.remoteClosed
  deviceClosed_eq : g.deviceClosed = f.deviceClosed
  writeShut_eq : g.writeShut = f.writeShut
  pending_eq : g.pending = f.pending
  socket_eq : g.socket = f.socket

/-- The flow is ready to read up to `size` bytes for a packet that it has started. -/
structure Reads (f : TcpFlow) (size : Nat) (g : TcpFlow) : Prop where
  mayRead : f.mayRead = true
  room : f.roomAtDevice ≠ 0
  started : ∃ reply, (f.prepared (.ack ∪ .psh)).reply.reserve (min f.roomAtDevice f.maxPayload) =
    .ok (size, reply) ∧ g = { f.prepared (.ack ∪ .psh) with reply }

theorem Reads.same {f g : TcpFlow} {size : Nat} (h : f.Reads size g) : SameState f g := by
  obtain ⟨reply, -, rfl⟩ := h.started
  exact ⟨rfl, rfl, rfl, rfl, rfl, rfl, rfl, rfl, rfl, rfl, rfl⟩

theorem Reads.permitted {f g : TcpFlow} {size : Nat} (h : f.Reads size g) :
    f.phase.sendsPayload = true ∧ f.remoteClosed = false ∧ f.pending = false := by
  have may := h.mayRead
  simp only [TcpFlow.mayRead, Bool.and_eq_true, Bool.not_eq_true'] at may
  exact ⟨may.1.1, may.1.2, may.2⟩

theorem Reads.connected {f g : TcpFlow} {size : Nat} (h : f.Reads size g) :
    f.phase.isConnecting = false := by
  obtain ⟨sends, -, -⟩ := h.permitted
  cases hp : f.phase <;> simp_all [Phase.sendsPayload, Phase.isConnecting]

theorem Reads.isOpen {f g : TcpFlow} {size : Nat} (h : f.Reads size g) : f.phase ≠ .closed := by
  obtain ⟨sends, -, -⟩ := h.permitted
  intro closed
  rw [closed] at sends
  cases sends

/-- The flow offers `front` to the socket. -/
structure Writes (f : TcpFlow) (front : Bytes) : Prop where
  connected : f.phase.isConnecting = false
  isOpen : f.phase ≠ .closed
  nonempty : f.ring.isEmpty = false
  front_eq : f.ring.front = .ok front

/-- Cancelling the flow's registration leaves this one behind, by this call. -/
inductive Cancels (f : TcpFlow) : Registration → Option Event → Prop where
  | unknown (h : f.registration.interest = none) : Cancels f f.registration none
  | known (h : f.registration.interest ≠ none) (outcome : Outcome) :
      Cancels f (f.registration.told none outcome) (some (.deregister f.socket outcome))

variable {σ : Type} [Outlet σ]

/-- A packet without payload was put together and offered. -/
structure Emits (flags : TcpFlags) (f : TcpFlow) (out : σ) (sent : Sent) (g : TcpFlow)
    (out' : σ) : Prop where
  built : ∃ reply, (f.prepared flags).reply.withoutPayload = .ok (sent.packet, reply) ∧
    g = { f.prepared flags with reply }
  offered : Outlet.offer sent.packet.bytes out = .ok (sent.taken, out')

/-- A packet without payload changes nothing but the next one and the window that it grants. -/
theorem Emits.same {flags : TcpFlags} {f g : TcpFlow} {out out' : σ} {sent : Sent}
    (h : Emits flags f out sent g out') : SameState f g := by
  obtain ⟨reply, -, rfl⟩ := h.built
  exact ⟨rfl, rfl, rfl, rfl, rfl, rfl, rfl, rfl, rfl, rfl, rfl⟩

/-- What is left of the way out when a data packet was offered: a flow that was refused waits. -/
def afterOffer (f : TcpFlow) (taken : Bool) (out : σ) : σ :=
  if taken then out else Outlet.await f.key out

/-- The flow `f` has to be reset, in the state `g`. -/
inductive Resets (stimulus : Stimulus) (f : TcpFlow) : Cause → TcpFlow → Prop where
  | noRequest {segment : Segment} (received : stimulus = .segment segment)
      (phase : f.phase = .initial) (not_syn : segment.flags.has .syn = false) :
      Resets stimulus f (.noRequest segment) { f with
        sequence := if segment.flags.has .ack then segment.acknowledgement else f.sequence
        expected := segment.sequence + segment.payload.length.toUInt32 }
  | request {segment : Segment} (received : stimulus = .segment segment)
      (connected : f.phase.isConnecting = false) (syn : segment.flags.has .syn = true) :
      Resets stimulus f (.request segment) f
  | connectError (phase : f.phase = .synSent) {error : PendingError} (failed : error ≠ .none) :
      Resets stimulus f (.connectError error) f
  | noPeer (phase : f.phase = .synSent) {kind : ErrorKind}
      (failed : kind ≠ .notConnected ∧ kind ≠ .wouldBlock) : Resets stimulus f (.noPeer kind) f
  | readError {size : Nat} {g : TcpFlow} (reads : f.Reads size g) {kind : ErrorKind}
      (failed : kind ≠ .wouldBlock ∧ kind ≠ .interrupted) :
      Resets stimulus f (.readError size kind) g
  | writeError {front : Bytes} (writes : f.Writes front) {result : Except ErrorKind Bytes}
      (failed : result = .ok [] ∨
        ∃ kind, result = .error kind ∧ kind ≠ .wouldBlock ∧ kind ≠ .interrupted) :
      Resets stimulus f (.writeError front.length result) f

/-- The flow `f` comes to its end, in the state `g`. -/
inductive Ends (stimulus : Stimulus) (f : TcpFlow) (out : σ) :
    Ending → TcpFlow → σ → Prop where
  | resetByDevice {segment : Segment} (received : stimulus = .segment segment)
      (phase : f.phase ≠ .initial) (rst : segment.flags.has .rst = true) :
      Ends stimulus f out (.resetByDevice segment) f out
  | confirmed {segment : Segment} (received : stimulus = .segment segment)
      (inOrder : f.InOrder segment) (ack : segment.flags.has .ack = true)
      (phase : f.phase = .closing ∨ f.phase = .lastAck)
      (all : segment.acknowledgement = f.sequence) :
      Ends stimulus f out (.confirmed segment)
        { f with confirmed := segment.acknowledgement, window := segment.window } out
  | finished {segment : Segment} (received : stimulus = .segment segment) (atEnd : f.AtEnd segment)
      (phase : f.phase = .finWait2) {sent : Sent} {g : TcpFlow} {out' : σ}
      (emits : Emits .ack { f with expected := f.expected + 1, deviceClosed := true } out sent g
        out') :
      Ends stimulus f out (.finished segment sent) g out'
  | refused (changed : f.registration.interest ≠ f.wanted) (kind : ErrorKind) :
      Ends stimulus f out (.refused (f.registration.pollerCall f.socket f.wanted (some kind))) f out
  | disconnected (asked : stimulus = .disconnect) : Ends stimulus f out .disconnected f out
  | reset {cause : Cause} {sent : Sent} {g g' : TcpFlow} {out' : σ}
      (resets : f.Resets stimulus cause g)
      (emits : Emits (if g.phase = .synSent then .rst ∪ .ack else .rst) g out sent g' out') :
      Ends stimulus f out (.reset cause sent) g' out'

/-- What a flow can change beside the host. -/
structure Stage (σ : Type) where
  flow : TcpFlow
  registry : Registry
  out : σ

inductive Move (stimulus : Stimulus) : Stage σ → Mark → Stage σ → Prop where
  | opened {f : TcpFlow} {r : Registry} {out : σ} {segment : Segment}
      (received : stimulus = .segment segment) (phase : f.phase = .initial)
      (syn : segment.flags.has .syn = true) (initial : UInt32) :
      Move stimulus ⟨f, r, out⟩ (.opened segment initial)
        ⟨{ f with
          expected := segment.sequence + 1
          sequence := initial
          confirmed := initial
          window := segment.window
          phase := .synSent }, r, out⟩
  | reopened {f : TcpFlow} {r : Registry} {out : σ} {segment : Segment}
      (received : stimulus = .segment segment) (phase : f.phase = .synSent)
      (syn : segment.flags.has .syn = true) :
      Move stimulus ⟨f, r, out⟩ (.reopened segment)
        ⟨{ f with expected := segment.sequence + 1, window := segment.window }, r, out⟩
  | unconnected {f : TcpFlow} {r : Registry} {out : σ} (phase : f.phase = .synSent)
      {kind : ErrorKind} (waits : kind = .notConnected ∨ kind = .wouldBlock) :
      Move stimulus ⟨f, r, out⟩ (.unconnected kind) ⟨f, r, out⟩
  | connected {f g : TcpFlow} {r : Registry} {out out' : σ} (phase : f.phase = .synSent)
      {sent : Sent}
      (emits : Emits (.syn ∪ .ack) { f with phase := .synReceived } out sent g out') :
      Move stimulus ⟨f, r, out⟩ (.connected sent)
        ⟨{ g with sequence := g.sequence + 1 }, r, out'⟩
  | acknowledged {f : TcpFlow} {r : Registry} {out : σ} {segment : Segment}
      (received : stimulus = .segment segment) (inOrder : f.InOrder segment)
      (ack : segment.flags.has .ack = true)
      (goesOn : ¬((f.phase = .closing ∨ f.phase = .lastAck) ∧
        segment.acknowledgement = f.sequence)) :
      Move stimulus ⟨f, r, out⟩ (.acknowledged segment)
        ⟨{ f with
          confirmed := segment.acknowledgement
          window := segment.window
          phase := f.phase.confirmed (segment.acknowledgement == f.sequence) }, r, out⟩
  | took {f g : TcpFlow} {r : Registry} {out out' : σ} {segment : Segment}
      (received : stimulus = .segment segment) (inOrder : f.InOrder segment)
      (nonempty : segment.payload ≠ []) (phase : f.phase.takesPayload = true)
      (fits : segment.payload.length ≤ f.ring.remaining) {ring : StreamRing}
      (pushed : f.ring.push segment.payload = .ok (segment.payload.length, ring)) {sent : Sent}
      (emits : Emits .ack
        { f with ring, expected := f.expected + segment.payload.length.toUInt32 } out sent g
        out') :
      Move stimulus ⟨f, r, out⟩ (.took segment sent) ⟨g, r, out'⟩
  | ended {f g : TcpFlow} {r : Registry} {out out' : σ} {segment : Segment}
      (received : stimulus = .segment segment) (atEnd : f.AtEnd segment) (phase : f.phase ≠ .finWait2)
      {sent : Sent}
      (emits : Emits .ack { f with expected := f.expected + 1, deviceClosed := true } out sent g
        out') :
      Move stimulus ⟨f, r, out⟩ (.ended segment sent)
        ⟨{ g with phase := g.phase.deviceFinished }, r, out'⟩
  | missed {f g : TcpFlow} {r : Registry} {out : σ} {size : Nat} (reads : f.Reads size g)
      {kind : ErrorKind} (waits : kind = .wouldBlock ∨ kind = .interrupted) :
      Move stimulus ⟨f, r, out⟩ (.missed size kind) ⟨g, r, out⟩
  | delivered {f g : TcpFlow} {r : Registry} {out out' : σ} {size : Nat} (reads : f.Reads size g)
      {payload : Bytes} (nonempty : payload ≠ []) (fits : payload.length ≤ size)
      {reply reply' : Reply} {sent : Sent}
      (committed : g.reply.commit payload payload.length = .ok reply)
      (completed : reply.completeData = .ok (sent.packet, reply'))
      (offered : Outlet.offer sent.packet.bytes out = .ok (sent.taken, out')) :
      Move stimulus ⟨f, r, out⟩ (.delivered size payload sent)
        ⟨{ g with
          reply := reply'
          sequence := g.sequence + payload.length.toUInt32
          pending := !sent.taken }, r, f.afterOffer sent.taken out'⟩
  | retried {f : TcpFlow} {r : Registry} {out out' : σ} (isOpen : f.phase ≠ .closed)
      (pending : f.pending = true) {sent : Sent}
      (latest : f.reply.latestData = .ok sent.packet)
      (offered : Outlet.offer sent.packet.bytes out = .ok (sent.taken, out')) :
      Move stimulus ⟨f, r, out⟩ (.retried sent)
        ⟨{ f with pending := !sent.taken }, r, f.afterOffer sent.taken out'⟩
  | exhausted {f g h : TcpFlow} {r : Registry} {out out' : σ} {size : Nat} (reads : f.Reads size g)
      {sent : Sent} (emits : Emits (.fin ∪ .ack) { g with remoteClosed := true } out sent h out') :
      Move stimulus ⟨f, r, out⟩ (.exhausted size sent)
        ⟨{ h with sequence := h.sequence + 1, phase := h.phase.remoteFinished }, r, out'⟩
  | wrote {f : TcpFlow} {r : Registry} {out : σ} {front : Bytes} (writes : f.Writes front)
      {bytes : Bytes} (nonempty : bytes ≠ []) (taken : bytes = front.take bytes.length) :
      Move stimulus ⟨f, r, out⟩ (.wrote front.length bytes)
        ⟨{ f with ring := f.ring.drop bytes.length }, r, out⟩
  | blocked {f : TcpFlow} {r : Registry} {out : σ} {front : Bytes} (writes : f.Writes front)
      {kind : ErrorKind} (waits : kind = .wouldBlock ∨ kind = .interrupted) :
      Move stimulus ⟨f, r, out⟩ (.blocked front.length kind) ⟨f, r, out⟩
  | widened {f g : TcpFlow} {r : Registry} {out out' : σ} (connected : f.phase.isConnecting = false)
      (isOpen : f.phase ≠ .closed) (unaware : f.advertised = 0) {sent : Sent}
      (emits : Emits .ack f out sent g out') :
      Move stimulus ⟨f, r, out⟩ (.widened sent) ⟨g, r, out'⟩
  | shut {f : TcpFlow} {r : Registry} {out : σ} (isOpen : f.phase ≠ .closed)
      (deviceClosed : f.deviceClosed = true) (writeShut : f.writeShut = false)
      (drained : f.ring.isEmpty = true) (outcome : Outcome) :
      Move stimulus ⟨f, r, out⟩ (.shut outcome) ⟨{ f with writeShut := true }, r, out⟩
  | told {f : TcpFlow} {r : Registry} {out : σ} (isOpen : f.phase ≠ .closed)
      (changed : f.registration.interest ≠ f.wanted) :
      Move stimulus ⟨f, r, out⟩ (.told (f.registration.pollerCall f.socket f.wanted none))
        ⟨{ f with registration := f.registration.told f.wanted none }, r, out⟩
  | closed {f g : TcpFlow} {r : Registry} {out out' : σ} (isOpen : f.phase ≠ .closed)
      {ending : Ending} (ends : Ends stimulus f out ending g out') {registration : Registration}
      {call : Option Event} (cancels : g.Cancels registration call) :
      Move stimulus ⟨f, r, out⟩ (.closed ending call)
        ⟨{ g with phase := .closed, registration }, r.erase g.registration.token, out'⟩

theorem Move.isOpen {stimulus : Stimulus} {f g : TcpFlow} {r r' : Registry} {out out' : σ}
    {mark : Mark} (move : Move stimulus ⟨f, r, out⟩ mark ⟨g, r', out'⟩) : f.phase ≠ .closed := by
  cases move with
  | opened _ phase _ _ => simp [phase]
  | reopened _ phase _ => simp [phase]
  | unconnected phase _ => simp [phase]
  | connected phase _ => simp [phase]
  | acknowledged _ inOrder _ _ => exact inOrder.isOpen
  | took _ inOrder _ _ _ _ _ => exact inOrder.isOpen
  | ended _ atEnd _ _ => exact atEnd.isOpen
  | missed reads _ => exact reads.isOpen
  | delivered reads _ _ _ _ _ => exact reads.isOpen
  | retried isOpen _ _ _ => exact isOpen
  | exhausted reads _ => exact reads.isOpen
  | wrote writes _ _ => exact writes.isOpen
  | blocked writes _ => exact writes.isOpen
  | widened _ isOpen _ _ => exact isOpen
  | shut isOpen _ _ _ _ => exact isOpen
  | told isOpen _ => exact isOpen
  | closed isOpen _ _ => exact isOpen

/-- A move as it happened: the flow before and after it. -/
structure Step where
  before : TcpFlow
  mark : Mark
  after : TcpFlow

def calls (steps : List Step) : List Event := steps.flatMap fun step => step.mark.calls step.before

theorem calls_append (first second : List Step) :
    calls (first ++ second) = calls first ++ calls second := List.flatMap_append

/-- The scene changes by a sequence of moves, apart from what is noted in between. -/
inductive Path (stimulus : Stimulus) :
    Scene TcpFlow σ → List Step → Scene TcpFlow σ → Prop where
  | quiet {s : Scene TcpFlow σ} {host : Host} (h : s.host.After [] host) :
      Path stimulus s [] { s with host }
  | move {s : Scene TcpFlow σ} {mark : Mark} {g : TcpFlow} {r : Registry} {out : σ} {host : Host}
      (move : Move stimulus ⟨s.self, s.registry, s.out⟩ mark ⟨g, r, out⟩)
      (called : s.host.After (mark.calls s.self) host) :
      Path stimulus s [⟨s.self, mark, g⟩] ⟨g, r, out, host⟩
  | append {s t u : Scene TcpFlow σ} {first second : List Step} (h : Path stimulus s first t)
      (h' : Path stimulus t second u) : Path stimulus s (first ++ second) u

variable {stimulus : Stimulus} {s t : Scene TcpFlow σ} {steps : List Step}

theorem Path.after (h : Path stimulus s steps t) : s.host.After (calls steps) t.host := by
  induction h with
  | quiet h => exact h
  | move _ called => simpa [calls] using called
  | append _ _ ih ih' => simpa [calls] using ih.trans ih'

/-- What every move preserves, given the moves before, a path preserves. -/
theorem Path.invariant {I : List Step → TcpFlow → Prop}
    (preserved : ∀ {journal : List Step} {f g : TcpFlow} {r r' : Registry} {out out' : σ}
      {mark : Mark}, I journal f → Move stimulus ⟨f, r, out⟩ mark ⟨g, r', out'⟩ →
      I (journal ++ [⟨f, mark, g⟩]) g)
    (h : Path stimulus s steps t) (journal : List Step) (hs : I journal s.self) :
    I (journal ++ steps) t.self := by
  induction h generalizing journal with
  | quiet => simpa using hs
  | move move _ => exact preserved hs move
  | append _ _ ih ih' =>
    rw [← List.append_assoc]
    exact ih' _ (ih _ hs)

end TcpFlow

end TunnelRelay
