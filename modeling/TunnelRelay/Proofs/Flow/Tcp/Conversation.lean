import TunnelRelay.Proofs.Flow.Tcp.GracefulClose
import TunnelRelay.Proofs.Flow.Tcp.ToDevice

/-!
# What a TCP flow says

The packets that a flow builds for the device follow a grammar. A flow that cannot be connected says
so by a reset and nothing else. A connected one answers the request first, then confirms and delivers
at the number it has reached, ends its stream at most once, and a reset is the last it says. A closed
flow is silent and leaves its socket and the poller alone.
-/

namespace TunnelRelay

def Event.isOffer : Event → Bool
  | .offer _ _ => true
  | _ => false

namespace TcpFlow

/-- The packet that waited and was offered again. -/
def Mark.retried? : Mark → Option Sent
  | retried sent => some sent
  | _ => none

/-- The moves by which packets were built for the device. -/
def speech (steps : List Step) : List Step := steps.filter fun step => step.mark.built?.isSome

namespace Step

/-- The step built a packet that is read as this segment. -/
def Says (step : Step) (segment : Segment) : Prop :=
  ∃ sent, step.mark.built? = some sent ∧ Segment.ofBytes sent.packet.bytes = .ok (some segment)

/-- The request is accepted under the flow's first number. The socket was asked before. -/
structure Answers (number request : UInt32) (step : Step) : Prop where
  wording : ∃ window, step.Says ⟨.syn ∪ .ack, number, request + 1, window, []⟩
  connected : ∃ sent, step.mark.built? = some sent ∧ step.mark.calls step.before =
    [.takeError step.before.socket .none, .peerAddress step.before.socket none, sent.call]

/-- Nothing but what the device sent is confirmed, under the number that the flow has reached. -/
structure Confirms (number : UInt32) (step : Step) : Prop where
  wording : ∃ acknowledgement window, step.Says ⟨.ack, number, acknowledgement, window, []⟩
  current : step.before.sequence = number

structure Delivers (number : UInt32) (payload : Bytes) (step : Step) : Prop where
  wording : ∃ acknowledgement window,
    step.Says ⟨.ack ∪ .psh, number, acknowledgement, window, payload⟩
  nonempty : payload ≠ []
  current : step.before.sequence = number

structure Finishes (number : UInt32) (step : Step) : Prop where
  wording : ∃ acknowledgement window, step.Says ⟨.fin ∪ .ack, number, acknowledgement, window, []⟩
  current : step.before.sequence = number

structure Breaks (step : Step) : Prop where
  wording : ∃ number acknowledgement window, step.Says ⟨.rst, number, acknowledgement, window, []⟩
  closed : step.after.phase = .closed

structure Refuses (step : Step) : Prop where
  wording : ∃ number acknowledgement window, step.Says ⟨.rst, number, acknowledgement, window, []⟩
  unasked : step.before.phase = .initial ∧ ∃ segment sent call,
    step.mark = .closed (.reset (.noRequest segment) sent) call ∧ segment.flags.has .syn = false
  closed : step.after.phase = .closed

/-- The device learns that its request cannot be met, as connecting has failed. -/
structure Fails (request : UInt32) (step : Step) : Prop where
  wording : ∃ number window, step.Says ⟨.rst ∪ .ack, number, request + 1, window, []⟩
  failed : step.before.phase = .synSent ∧ ∃ cause sent call,
    step.mark = .closed (.reset cause sent) call ∧
      ((∃ error, cause = .connectError error ∧ error ≠ .none) ∨
        ∃ kind, cause = .noPeer kind ∧ kind ≠ .notConnected ∧ kind ≠ .wouldBlock)
  closed : step.after.phase = .closed

end Step

/-- What a connected flow says until it is given up. The flow's own number goes on with every payload
and with its end, behind which it only confirms. -/
inductive Conversation (number request : UInt32) : UInt32 → Bool → List Step → Prop where
  | answer {step : Step} (h : step.Answers number request) :
      Conversation number request (number + 1) false [step]
  | confirm {next : UInt32} {ended : Bool} {steps : List Step} {step : Step}
      (earlier : Conversation number request next ended steps) (h : step.Confirms next) :
      Conversation number request next ended (steps ++ [step])
  | deliver {next : UInt32} {steps : List Step} {step : Step} {payload : Bytes}
      (earlier : Conversation number request next false steps) (h : step.Delivers next payload) :
      Conversation number request (next + payload.length.toUInt32) false (steps ++ [step])
  | finish {next : UInt32} {steps : List Step} {step : Step}
      (earlier : Conversation number request next false steps) (h : step.Finishes next) :
      Conversation number request (next + 1) true (steps ++ [step])

theorem Conversation.ne_nil {number request next : UInt32} {ended : Bool} {steps : List Step}
    (h : Conversation number request next ended steps) : steps ≠ [] := by
  cases h <;> simp

/-- What a flow says from first to last, given its own first number and the last request. -/
inductive Spoken (number? request? : Option UInt32) : List Step → Prop where
  | nothing : Spoken number? request? []
  | refusal {step : Step} (h : step.Refuses) : Spoken number? request? [step]
  | failure {request : UInt32} {step : Step} (asked : request? = some request)
      (h : step.Fails request) : Spoken number? request? [step]
  | conversation {number request next : UInt32} {ended : Bool} {steps : List Step}
      (chosen : number? = some number) (asked : request? = some request)
      (h : Conversation number request next ended steps) : Spoken number? request? steps
  | broken {number request next : UInt32} {ended : Bool} {steps : List Step} {step : Step}
      (chosen : number? = some number) (asked : request? = some request)
      (earlier : Conversation number request next ended steps) (h : step.Breaks) :
      Spoken number? request? (steps ++ [step])

variable {σ : Type} [Outlet σ] {stimulus : Stimulus} {f g : TcpFlow} {r r' : Registry}
  {out out' : σ} {mark : Mark} {journal pre : List Step} {step : Step} {s t : Scene TcpFlow σ}

theorem speech_concat (step : Step) :
    speech (journal ++ [step]) =
      speech journal ++ if step.mark.built?.isSome then [step] else [] := by
  simp [speech, List.filter_cons]

/-- A flow has said nothing until it is connected. From then on its conversation has come as far as
its own number. -/
structure Speaking (journal : List Step) (f : TcpFlow) : Prop where
  healthy : Healthy f
  unchosen : f.phase = .initial → initialNumber journal = none
  silent : f.phase.isConnecting = true → speech journal = [] ∧ f.remoteClosed = false
  asked : f.phase = .synSent → initialNumber journal = some f.sequence ∧
    ∃ request, lastRequest journal = some request ∧ f.expected = request + 1
  talking : f.phase.isConnecting = false → f.phase ≠ .closed → ∃ number request,
    initialNumber journal = some number ∧ lastRequest journal = some request ∧
      Conversation number request f.sequence f.remoteClosed (speech journal)
  spoken : f.phase = .closed →
    Spoken (initialNumber journal) (lastRequest journal) (speech journal)

theorem Speaking.so_far (h : Speaking journal f) :
    Spoken (initialNumber journal) (lastRequest journal) (speech journal) := by
  by_cases closed : f.phase = .closed
  · exact h.spoken closed
  · cases connecting : f.phase.isConnecting with
    | true =>
      rw [(h.silent connecting).1]
      exact .nothing
    | false =>
      obtain ⟨number, request, chosen, asked, conversation⟩ := h.talking connecting closed
      exact .conversation chosen asked conversation

theorem Fresh.speaking (hf : Fresh f) : Speaking [] f := by
  have phase := hf.phase_eq
  have remote : f.remoteClosed = false := by
    rw [hf.consistent.remoteClosed_eq, phase]
    rfl
  refine ⟨hf.healthy, fun _ => rfl, fun _ => ⟨rfl, remote⟩, ?_, ?_, ?_⟩
  · intro sent
    cases phase.symm.trans sent
  · intro connected
    rw [phase] at connected
    cases connected
  · exact fun _ => .nothing

private theorem Speaking.talk (h : Speaking journal f)
    (move : Move stimulus ⟨f, r, out⟩ mark ⟨g, r', out'⟩) (connected : f.phase.isConnecting = false)
    (isOpen : g.phase ≠ .closed) (request_eq : mark.request? = none)
    (leads : ∀ number request,
      Conversation number request f.sequence f.remoteClosed (speech journal) →
        Conversation number request g.sequence g.remoteClosed (speech (journal ++ [⟨f, mark, g⟩]))) :
    Speaking (journal ++ [⟨f, mark, g⟩]) g := by
  have still := move.stays_connected connected
  obtain ⟨number, request, chosen, asked, conversation⟩ := h.talking connected move.isOpen
  refine ⟨move.healthy h.healthy, ?_, ?_, ?_, ?_, fun closed => absurd closed isOpen⟩
  · intro initial
    rw [initial] at still
    cases still
  · intro connecting
    cases still.symm.trans connecting
  · intro sent
    rw [sent] at still
    cases still
  · intro _ _
    refine ⟨number, request, ?_, ?_, leads number request conversation⟩
    · rw [initialNumber_concat, chosen]
      rfl
    · rw [lastRequest_concat, request_eq, asked]
      rfl

private theorem Speaking.aside (h : Speaking journal f)
    (move : Move stimulus ⟨f, r, out⟩ mark ⟨g, r', out'⟩) (initial_eq : mark.initial? = none)
    (request_eq : mark.request? = none) (built : mark.built? = none) (phase_eq : g.phase = f.phase)
    (sequence_eq : g.sequence = f.sequence) (expected_eq : g.expected = f.expected)
    (remote_eq : g.remoteClosed = f.remoteClosed) : Speaking (journal ++ [⟨f, mark, g⟩]) g := by
  have number : initialNumber (journal ++ [⟨f, mark, g⟩]) = initialNumber journal := by
    rw [initialNumber_concat, initial_eq, Option.or_none]
  have request : lastRequest (journal ++ [⟨f, mark, g⟩]) = lastRequest journal := by
    rw [lastRequest_concat, request_eq, Option.none_or]
  have said : speech (journal ++ [⟨f, mark, g⟩]) = speech journal := by
    rw [speech_concat, built]
    simp
  obtain ⟨healthy, unchosen, silent, asked, talking, spoken⟩ := h
  refine ⟨move.healthy healthy, ?_, ?_, ?_, ?_, ?_⟩ <;>
    rw [phase_eq] <;> simp only [number, request, said, sequence_eq, expected_eq, remote_eq] <;>
    assumption

private theorem Speaking.confirm {sent : Sent} {f' g' : TcpFlow} {out₁ out₂ : σ}
    (h : Speaking journal f) (move : Move stimulus ⟨f, r, out⟩ mark ⟨g, r', out'⟩)
    (connected : f.phase.isConnecting = false) (isOpen : g.phase ≠ .closed)
    (request_eq : mark.request? = none) (built : mark.built? = some sent)
    (emits : Emits .ack f' out₁ sent g' out₂) (healthy : Healthy f')
    (before : f'.sequence = f.sequence ∧ f'.remoteClosed = f.remoteClosed)
    (after : g.sequence = g'.sequence ∧ g.remoteClosed = g'.remoteClosed) :
    Speaking (journal ++ [⟨f, mark, g⟩]) g := by
  refine h.talk move connected isOpen request_eq fun number request conversation => ?_
  have same := emits.same
  rw [speech_concat, built, after.1, after.2, same.sequence_eq, same.remoteClosed_eq, before.1,
    before.2]
  refine conversation.confirm ⟨⟨f'.expected, f'.windowToGrant.toUInt16, sent, built, ?_⟩, rfl⟩
  rw [emits.read_eq healthy, ← before.1]
  rfl

private theorem Speaking.requested {segment : Segment} (h : Speaking journal f)
    (move : Move stimulus ⟨f, r, out⟩ mark ⟨g, r', out'⟩) (connecting : f.phase.isConnecting = true)
    (chosen : initialNumber (journal ++ [⟨f, mark, g⟩]) = some g.sequence)
    (request_eq : mark.request? = some segment.sequence) (built : mark.built? = none)
    (phase : g.phase = .synSent) (expected_eq : g.expected = segment.sequence + 1)
    (remote_eq : g.remoteClosed = f.remoteClosed) : Speaking (journal ++ [⟨f, mark, g⟩]) g := by
  obtain ⟨nothing, remote⟩ := h.silent connecting
  refine ⟨move.healthy h.healthy, ?_, ?_, ?_, ?_, ?_⟩
  · intro initial
    cases phase.symm.trans initial
  · intro _
    rw [speech_concat, nothing, built, remote_eq]
    exact ⟨rfl, remote⟩
  · intro _
    rw [lastRequest_concat, request_eq]
    exact ⟨chosen, segment.sequence, rfl, expected_eq⟩
  · intro connected
    rw [phase] at connected
    cases connected
  · intro closed
    cases phase.symm.trans closed

private theorem Speaking.connected {sent : Sent} {g' : TcpFlow} (h : Speaking journal f)
    (move : Move stimulus ⟨f, r, out⟩ (.connected sent) ⟨g, r', out'⟩) (phase : f.phase = .synSent)
    (emits : Emits (.syn ∪ .ack) { f with phase := .synReceived } out sent g' out')
    (hg : g = { g' with sequence := g'.sequence + 1 }) :
    Speaking (journal ++ [⟨f, .connected sent, g⟩]) g := by
  obtain ⟨nothing, remote⟩ := h.silent (by rw [phase]; rfl)
  obtain ⟨chosen, request, asked, expected_eq⟩ := h.asked phase
  have hf := h.healthy
  have wording := emits.read_eq ⟨hf.sound, hf.plain, hf.protocol_eq⟩
  have same := emits.same
  have after : g.phase = .synReceived ∧ g.sequence = f.sequence + 1 ∧ g.remoteClosed = false := by
    subst hg
    exact ⟨same.phase_eq, congrArg (· + 1) same.sequence_eq, same.remoteClosed_eq.trans remote⟩
  obtain ⟨phase', sequence_eq, remote_eq⟩ := after
  refine ⟨move.healthy h.healthy, ?_, ?_, ?_, ?_, ?_⟩
  · intro initial
    cases phase'.symm.trans initial
  · intro connecting
    rw [phase'] at connecting
    cases connecting
  · intro again
    cases phase'.symm.trans again
  · intro _ _
    refine ⟨f.sequence, request, ?_, ?_, ?_⟩
    · rw [initialNumber_concat, chosen]
      rfl
    · rw [lastRequest_concat, asked]
      rfl
    · rw [speech_concat, nothing, sequence_eq, remote_eq]
      refine .answer ⟨⟨f.windowToGrant.toUInt16, sent, rfl, ?_⟩, sent, rfl, rfl⟩
      rw [wording, ← expected_eq]
      rfl
  · intro closed
    cases phase'.symm.trans closed

private theorem Speaking.delivered {size : Nat} {payload : Bytes} {sent : Sent} {reply reply' : Reply}
    {g' : TcpFlow} (h : Speaking journal f)
    (move : Move stimulus ⟨f, r, out⟩ (.delivered size payload sent) ⟨g, r', out'⟩)
    (reads : f.Reads size g') (nonempty : payload ≠ [])
    (committed : g'.reply.commit payload payload.length = .ok reply)
    (completed : reply.completeData = .ok (sent.packet, reply'))
    (after : g.phase = g'.phase ∧ g.sequence = g'.sequence + payload.length.toUInt32 ∧
      g.remoteClosed = g'.remoteClosed) :
    Speaking (journal ++ [⟨f, .delivered size payload sent, g⟩]) g := by
  have same := reads.same
  obtain ⟨-, remote, -⟩ := reads.permitted
  have isOpen : g.phase ≠ .closed := by
    rw [after.1, same.phase_eq]
    exact reads.isOpen
  refine h.talk move reads.connected isOpen rfl fun number request conversation => ?_
  rw [remote] at conversation
  rw [speech_concat, after.2.1, after.2.2, same.sequence_eq, same.remoteClosed_eq, remote]
  refine conversation.deliver ⟨⟨f.expected, f.windowToGrant.toUInt16, sent, rfl, ?_⟩, nonempty, rfl⟩
  rw [reads.read_eq h.healthy committed completed]
  rfl

private theorem Speaking.exhausted {size : Nat} {sent : Sent} {g' g'' : TcpFlow}
    (h : Speaking journal f) (move : Move stimulus ⟨f, r, out⟩ (.exhausted size sent) ⟨g, r', out'⟩)
    (reads : f.Reads size g')
    (emits : Emits (.fin ∪ .ack) { g' with remoteClosed := true } out sent g'' out')
    (after : g.phase = g''.phase.remoteFinished ∧ g.sequence = g''.sequence + 1 ∧
      g.remoteClosed = g''.remoteClosed) :
    Speaking (journal ++ [⟨f, .exhausted size sent, g⟩]) g := by
  have same := reads.same
  have same' := emits.same
  obtain ⟨-, remote, -⟩ := reads.permitted
  have healthy := reads.healthy h.healthy
  have isOpen : g.phase ≠ .closed := by
    rw [after.1, same'.phase_eq]
    simp only [ne_eq, Phase.remoteFinished_eq_closed]
    rw [same.phase_eq]
    exact reads.isOpen
  refine h.talk move reads.connected isOpen rfl fun number request conversation => ?_
  rw [remote] at conversation
  rw [speech_concat, after.2.1, after.2.2, same'.sequence_eq, same'.remoteClosed_eq]
  simp only [same.sequence_eq]
  refine conversation.finish ⟨⟨f.expected, g'.windowToGrant.toUInt16, sent, rfl, ?_⟩, rfl⟩
  rw [emits.read_eq ⟨healthy.sound, healthy.plain, healthy.protocol_eq⟩,
    ← same.sequence_eq, ← same.expected_eq]
  rfl

private theorem Speaking.broken {cause : Cause} {sent : Sent} {call : Option Event}
    {f' g' : TcpFlow} {out₁ out₂ : σ} {registration : Registration} (h : Speaking journal f)
    (connected : f.phase.isConnecting = false) (isOpen : f.phase ≠ .closed) (healthy : Healthy f')
    (phase : f'.phase = f.phase)
    (emits : Emits (if f'.phase = .synSent then .rst ∪ .ack else .rst) f' out₁ sent g' out₂) :
    Spoken (initialNumber journal) (lastRequest journal) (speech journal ++
      [⟨f, .closed (.reset cause sent) call, { g' with phase := .closed, registration }⟩]) := by
  obtain ⟨number, request, chosen, asked, conversation⟩ := h.talking connected isOpen
  have wording := emits.read_eq healthy
  rw [if_neg (by rintro sent; rw [phase] at sent; rw [sent] at connected; cases connected)] at wording
  exact .broken chosen asked conversation ⟨⟨_, _, _, sent, rfl, wording⟩, rfl⟩

private theorem Speaking.closed {ending : Ending} {call : Option Event} {registration : Registration}
    (h : Speaking journal f)
    (move : Move stimulus ⟨f, r, out⟩ (.closed ending call)
      ⟨{ g with phase := .closed, registration }, r', out'⟩)
    {out₂ : σ} (ends : Ends stimulus f out ending g out₂) :
    Speaking (journal ++ [⟨f, .closed ending call, { g with phase := .closed, registration }⟩])
      { g with phase := .closed, registration } := by
  have isOpen := move.isOpen
  refine ⟨move.healthy h.healthy, ?_, ?_, ?_, fun _ isOpen => absurd rfl isOpen, fun _ => ?_⟩
  · rintro ⟨⟩
  · rintro ⟨⟩
  · rintro ⟨⟩
  rw [initialNumber_concat, lastRequest_concat, speech_concat]
  simp only [Mark.initial?, Mark.request?, Option.or_none, Option.none_or]
  have hf := h.healthy
  cases ends with
  | resetByDevice _ _ _ => simpa [Mark.built?] using h.so_far
  | confirmed _ _ _ _ _ => simpa [Mark.built?] using h.so_far
  | refused _ _ => simpa [Mark.built?] using h.so_far
  | disconnected _ => simpa [Mark.built?] using h.so_far
  | finished _ atEnd _ emits =>
    obtain ⟨number, request, chosen, asked, conversation⟩ := h.talking atEnd.connected isOpen
    have wording := emits.read_eq ⟨hf.sound, hf.plain, hf.protocol_eq⟩
    exact .conversation chosen asked (conversation.confirm ⟨⟨_, _, _, rfl, wording⟩, rfl⟩)
  | @reset cause sent f' g' _ resets emits =>
    have healthy := resets.healthy hf
    have wording := emits.read_eq healthy
    simp only [Mark.built?, Option.isSome_some, if_true]
    cases resets with
    | @noRequest segment _ phase not_syn =>
      obtain ⟨nothing, -⟩ := h.silent (by rw [phase]; rfl)
      simp only [phase, reduceCtorEq, if_false] at wording
      rw [nothing]
      exact .refusal ⟨⟨_, _, _, sent, rfl, wording⟩, ⟨phase, segment, sent, call, rfl, not_syn⟩, rfl⟩
    | request _ connected _ => exact h.broken connected isOpen healthy rfl emits
    | @connectError phase error failed =>
      obtain ⟨nothing, -⟩ := h.silent (by rw [phase]; rfl)
      obtain ⟨-, request, asked, expected_eq⟩ := h.asked phase
      rw [if_pos phase, TcpFlow.segment, expected_eq] at wording
      rw [nothing]
      exact .failure asked ⟨⟨_, _, sent, rfl, wording⟩,
        ⟨phase, _, sent, call, rfl, .inl ⟨error, rfl, failed⟩⟩, rfl⟩
    | @noPeer phase kind failed =>
      obtain ⟨nothing, -⟩ := h.silent (by rw [phase]; rfl)
      obtain ⟨-, request, asked, expected_eq⟩ := h.asked phase
      rw [if_pos phase, TcpFlow.segment, expected_eq] at wording
      rw [nothing]
      exact .failure asked ⟨⟨_, _, sent, rfl, wording⟩,
        ⟨phase, _, sent, call, rfl, .inr ⟨kind, rfl, failed⟩⟩, rfl⟩
    | readError reads _ =>
      exact h.broken reads.connected isOpen healthy reads.same.phase_eq emits
    | writeError writes _ => exact h.broken writes.connected isOpen healthy rfl emits

theorem Move.speaking (h : Speaking journal f)
    (move : Move stimulus ⟨f, r, out⟩ mark ⟨g, r', out'⟩) :
    Speaking (journal ++ [⟨f, mark, g⟩]) g := by
  have move' := move
  have hf := h.healthy
  cases move with
  | opened _ phase _ initial =>
    refine h.requested move' (by rw [phase]; rfl) ?_ rfl rfl rfl rfl rfl
    rw [initialNumber_concat, h.unchosen phase]
    rfl
  | reopened _ phase _ =>
    refine h.requested move' (by rw [phase]; rfl) ?_ rfl rfl phase rfl rfl
    rw [initialNumber_concat, (h.asked phase).1]
    rfl
  | unconnected _ _ => exact h.aside move' rfl rfl rfl rfl rfl rfl rfl
  | connected phase emits => exact h.connected move' phase emits rfl
  | acknowledged _ inOrder _ _ =>
    refine h.talk move' inOrder.connected ?_ rfl fun number request conversation => ?_
    · simpa using inOrder.isOpen
    · rw [speech_concat]
      simpa [Mark.built?] using conversation
  | took _ inOrder _ _ _ pushed emits =>
    refine h.confirm move' inOrder.connected ?_ rfl rfl emits
      ⟨hf.sound.push pushed, hf.plain, hf.protocol_eq⟩ ⟨rfl, rfl⟩ ⟨rfl, rfl⟩
    rw [emits.same.phase_eq]
    exact inOrder.isOpen
  | ended _ atEnd _ emits =>
    refine h.confirm move' atEnd.connected ?_ rfl rfl emits
      ⟨hf.sound, hf.plain, hf.protocol_eq⟩ ⟨rfl, rfl⟩ ⟨rfl, rfl⟩
    simp only [ne_eq, Phase.deviceFinished_eq_closed]
    rw [emits.same.phase_eq]
    exact atEnd.isOpen
  | missed reads _ =>
    have same := reads.same
    exact h.aside move' rfl rfl rfl same.phase_eq same.sequence_eq same.expected_eq
      same.remoteClosed_eq
  | delivered reads nonempty _ committed completed _ =>
    exact h.delivered move' reads nonempty committed completed ⟨rfl, rfl, rfl⟩
  | retried _ _ _ _ => exact h.aside move' rfl rfl rfl rfl rfl rfl rfl
  | exhausted reads emits => exact h.exhausted move' reads emits ⟨rfl, rfl, rfl⟩
  | wrote _ _ _ => exact h.aside move' rfl rfl rfl rfl rfl rfl rfl
  | blocked _ _ => exact h.aside move' rfl rfl rfl rfl rfl rfl rfl
  | widened connected isOpen _ emits =>
    refine h.confirm move' connected ?_ rfl rfl emits hf ⟨rfl, rfl⟩ ⟨rfl, rfl⟩
    rw [emits.same.phase_eq]
    exact isOpen
  | shut _ _ _ _ _ => exact h.aside move' rfl rfl rfl rfl rfl rfl rfl
  | told _ _ => exact h.aside move' rfl rfl rfl rfl rfl rfl rfl
  | closed _ ends _ => exact h.closed move' ends

theorem Run.speaking (run : Run journal s) : Speaking journal s.self :=
  run.invariant Fresh.speaking Move.speaking

theorem not_isOffer_pollerCall (r : Registration) (socket : SocketId) (wanted : Option Interest)
    (outcome : Outcome) : (r.pollerCall socket wanted outcome).isOffer = false := by
  unfold Registration.pollerCall
  split <;> rfl

private theorem Cancels.filter_isOffer {registration : Registration} {call : Option Event}
    (h : f.Cancels registration call) : call.toList.filter Event.isOffer = [] := by
  cases h <;> rfl

/-- A move offers the packet that it builds or the one that waited, and no other. -/
theorem Move.offers (move : Move stimulus ⟨f, r, out⟩ mark ⟨g, r', out'⟩) :
    (mark.calls f).filter Event.isOffer =
      (mark.built?.or mark.retried?).toList.map Sent.call := by
  have await (taken : Bool) :
      (if taken then [] else [Event.await f.key]).filter Event.isOffer = [] := by
    split <;> rfl
  cases move with
  | told _ _ => simp [Mark.calls, Mark.built?, Mark.retried?, not_isOffer_pollerCall]
  | delivered | retried =>
    rw [Mark.calls, List.filter_append, await]
    rfl
  | closed _ ends cancels =>
    rw [Mark.calls, List.filter_append, cancels.filter_isOffer, List.append_nil]
    cases ends with
    | reset resets _ => cases resets <;> rfl
    | refused _ _ => simp [Ending.calls, Mark.built?, Mark.retried?, not_isOffer_pollerCall]
    | resetByDevice | confirmed | finished | disconnected => rfl
  | opened | reopened | acknowledged | unconnected | connected | took | ended | missed | exhausted
  | wrote | blocked | widened | shut => rfl

theorem Move.retries (move : Move stimulus ⟨f, r, out⟩ mark ⟨g, r', out'⟩) {sent : Sent}
    (h : mark.retried? = some sent) :
    f.pending = true ∧ f.reply.latestData = .ok sent.packet := by
  cases move with
  | retried _ pending latest _ =>
    cases h
    exact ⟨pending, latest⟩
  | _ => cases h

theorem Path.of_closed {steps : List Step} (path : Path stimulus s steps t)
    (closed : s.self.phase = .closed) :
    steps = [] ∧ t.self = s.self ∧ t.registry = s.registry ∧ t.out = s.out := by
  induction path with
  | quiet _ => exact ⟨rfl, rfl, rfl, rfl⟩
  | move move _ => exact absurd closed move.isOpen
  | append _ _ ih ih' =>
    obtain ⟨rfl, self_eq, registry_eq, out_eq⟩ := ih closed
    obtain ⟨rfl, self_eq', registry_eq', out_eq'⟩ := ih' (self_eq ▸ closed)
    exact ⟨rfl, self_eq'.trans self_eq, registry_eq'.trans registry_eq, out_eq'.trans out_eq⟩

theorem Run.silent_of_closed (run : Run journal s) (closed : s.self.phase = .closed)
    {operation : Operation} (performed : operation.perform s = .ok ((), t)) :
    t.self = s.self ∧ t.registry = s.registry ∧ t.out = s.out ∧ t.host.calls = s.host.calls := by
  obtain ⟨steps, path, -, called⟩ := run.continues operation t performed
  obtain ⟨rfl, self_eq, registry_eq, out_eq⟩ := path.of_closed closed
  exact ⟨self_eq, registry_eq, out_eq, called⟩

/-- In every run the packets that a flow builds for the device follow the grammar, and a connected
flow speaks under its own number. No packet is offered but these and the one that waited. The end of
the flow is the last it does, and a closed flow neither speaks nor calls its socket or the poller. -/
theorem Run.emission_grammar (run : Run journal s) :
    Continues journal s ∧
    Spoken (initialNumber journal) (lastRequest journal) (speech journal) ∧
    (s.self.phase.isConnecting = false → s.self.phase ≠ .closed → ∃ number request,
      Conversation number request s.self.sequence s.self.remoteClosed (speech journal)) ∧
    (∀ pre step post, journal = pre ++ step :: post →
      (step.mark.calls step.before).filter Event.isOffer =
        (step.mark.built?.or step.mark.retried?).toList.map Sent.call ∧
      (∀ sent, step.mark.retried? = some sent →
        step.before.pending = true ∧ step.before.reply.latestData = .ok sent.packet) ∧
      (step.after.phase = .closed → post = [])) ∧
    (s.self.phase = .closed → ∀ (operation : Operation) (t : Scene TcpFlow σ),
      operation.perform s = .ok ((), t) →
        t.self = s.self ∧ t.registry = s.registry ∧ t.out = s.out ∧
          t.host.calls = s.host.calls) := by
  have speaking := run.speaking
  refine ⟨run.continues, speaking.so_far, ?_, ?_, ?_⟩
  · intro connected isOpen
    obtain ⟨number, request, -, -, conversation⟩ := speaking.talking connected isOpen
    exact ⟨number, request, conversation⟩
  · rintro pre ⟨f, mark, g⟩ post split
    have isPrefix : pre ++ [⟨f, mark, g⟩] <+: journal := ⟨post, by simp [split]⟩
    obtain ⟨-, -, _, _, _, _, _, move⟩ :=
      run.invariant_step (I := Speaking) Fresh.speaking Move.speaking isPrefix
    refine ⟨move.offers, fun _ => move.retries, fun closed => ?_⟩
    obtain ⟨same, -⟩ := run.eq_of_closed isPrefix closed
    simpa [split] using same
  · intro closed operation t performed
    exact run.silent_of_closed closed performed

/-- A flow answers, delivers a packet that is refused at first, ends its stream, confirms the device's
payload, and is reset by another request. -/
theorem emission_grammar_broken : ∃ journal, ∃ s : Scene TcpFlow Credit, Run journal s ∧
    ((calls journal).filter Event.isOffer).length = 6 ∧ s.self.phase = .closed ∧
    Spoken (initialNumber journal) (lastRequest journal) (speech journal) := by
  obtain ⟨journal, s, run, result⟩ := exists_run_of_enacts
    (p := fun events t => (events.filter Event.isOffer).length == 6 && t.self.phase == .closed)
    (show enacts (devicePacket .syn 0x110 0 []) { streamCapacity := 16 }
      { sockets := [(0, { arrivals := [.data [104, 105], .finished] })] }
      [(⟨none⟩, .ofDevice .syn 0x110 0 []),
        (⟨none⟩, .ready { writable := true }),
        (⟨some 0⟩, .ofDevice .ack 0x111 0x1001 []),
        (⟨none⟩, .pull),
        (⟨none⟩, .ofDevice (.psh ∪ .ack) 0x111 0x1003 [104, 101]),
        (⟨none⟩, .ofDevice .syn 0x110 0 [])] _ = true by
      decide +kernel)
  simp only [Bool.and_eq_true, beq_iff_eq] at result
  exact ⟨journal, s, run, result.1, result.2, run.emission_grammar.2.1⟩

end TcpFlow

end TunnelRelay
