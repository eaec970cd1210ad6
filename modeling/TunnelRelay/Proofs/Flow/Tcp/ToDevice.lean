import TunnelRelay.Proofs.Flow.Tcp.Segments

/-!
# The stream to the device

What the socket delivers reaches the device unchanged, however often the way out refuses a packet:
the bytes that were read are the payloads that were taken, followed by the payload that waits. Every
data packet is numbered by its place in the stream, and the end comes behind all of it.
-/

namespace TunnelRelay

/-- What a read of a stream yielded. -/
def Event.fetched : Event → Bytes
  | .read _ _ (.ok bytes) => bytes
  | _ => []

def Event.isRead : Event → Bool
  | .read _ _ _ => true
  | _ => false

def Packet.carried (packet : Packet) : Bytes :=
  match Segment.ofPacket packet with
  | .ok (some segment) => segment.payload
  | _ => []

namespace TcpFlow

def Mark.data? : Mark → Option Sent
  | delivered _ _ sent | retried sent => some sent
  | _ => none

/-- The payload that the device was sent. -/
def Mark.passed (mark : Mark) : Bytes :=
  match mark.data? with
  | some sent => if sent.taken then sent.packet.carried else []
  | none => []

/-- The flow's own first number, where it was chosen. -/
def Mark.initial? : Mark → Option UInt32
  | opened _ initial => some initial
  | _ => none

/-- The packet by which the flow ended its stream. -/
def Mark.finish? : Mark → Option Sent
  | exhausted _ sent => some sent
  | _ => none

def fetched (steps : List Step) : Bytes := (calls steps).flatMap Event.fetched

def passed (steps : List Step) : Bytes := steps.flatMap fun step => step.mark.passed

/-- The flow's own first number, once it was chosen. -/
def initialNumber (steps : List Step) : Option UInt32 :=
  (steps.filterMap fun step => step.mark.initial?).head?

def finished (steps : List Step) : Bool := steps.any fun step => step.mark.finish?.isSome

/-- The payload of the data packet that waits, if there is one. -/
def held (f : TcpFlow) : Bytes :=
  if f.pending then
    match f.reply.latestData with
    | .ok packet => packet.carried
    | .error _ => []
  else []

variable {σ : Type} [Outlet σ] {stimulus : Stimulus} {f g : TcpFlow} {r r' : Registry}
  {out out' : σ} {mark : Mark} {journal pre post : List Step} {step : Step} {s : Scene TcpFlow σ}

private theorem fetched_concat (step : Step) :
    fetched (journal ++ [step]) =
      fetched journal ++ (step.mark.calls step.before).flatMap Event.fetched := by
  simp [fetched, calls]

private theorem passed_concat (step : Step) :
    passed (journal ++ [step]) = passed journal ++ step.mark.passed := by
  simp [passed]

theorem initialNumber_concat (step : Step) :
    initialNumber (journal ++ [step]) = (initialNumber journal).or step.mark.initial? := by
  unfold initialNumber
  cases h : step.mark.initial? <;> simp [h]

private theorem finished_concat (step : Step) :
    finished (journal ++ [step]) = (finished journal || step.mark.finish?.isSome) := by
  simp [finished]

/-- The number of the flow's next packet: behind the request, all data and the end. -/
structure Numbered (journal : List Step) (f : TcpFlow) : Prop where
  sequence_eq : f.phase ≠ .initial → f.phase ≠ .closed → ∃ n, initialNumber journal = some n ∧
    f.sequence = n + (if f.phase = .synSent then 0 else 1) + (fetched journal).length.toUInt32 +
      if f.remoteClosed then 1 else 0
  unchosen : f.phase = .initial → initialNumber journal = none
  silent : f.phase.isConnecting = true → fetched journal = [] ∧ passed journal = [] ∧
    f.pending = false ∧ f.remoteClosed = false
  closed : finished journal = true → f.phase = .closed ∨ f.remoteClosed = true

structure Downlink (journal : List Step) (f : TcpFlow) : Prop where
  healthy : Healthy f
  consistent : f.phase ≠ .closed → Consistent f
  stream_eq : fetched journal = passed journal ++ f.held
  numbered : Numbered journal f
  waiting : f.pending = true → ∃ packet segment, f.reply.latestData = .ok packet ∧
    Segment.ofPacket packet = .ok (some segment) ∧ segment.flags = .ack ∪ .psh ∧
      ∃ n, initialNumber journal = some n ∧
        segment.sequence = n + 1 + (passed journal).length.toUInt32

private structure Keeps (f g : TcpFlow) : Prop where
  pending_eq : g.pending = f.pending
  latest_eq : f.pending = true → g.reply.latestData = f.reply.latestData
  numbers : g.phase ≠ .closed → g.sequence = f.sequence ∧ g.remoteClosed = f.remoteClosed ∧
    f.phase ≠ .closed ∧ (g.phase = f.phase ∨ f.phase.isConnecting = false ∧
      g.phase.isConnecting = false)

private theorem Downlink.aside (h : Downlink journal f)
    (move : Move stimulus ⟨f, r, out⟩ mark ⟨g, r', out'⟩) (keeps : Keeps f g)
    (fetched_eq : (mark.calls f).flatMap Event.fetched = []) (passed_eq : mark.passed = [])
    (initial_eq : mark.initial? = none) (finish_eq : mark.finish? = none) :
    Downlink (journal ++ [⟨f, mark, g⟩]) g := by
  have fetched' : fetched (journal ++ [⟨f, mark, g⟩]) = fetched journal := by
    rw [fetched_concat, fetched_eq, List.append_nil]
  have passed' : passed (journal ++ [⟨f, mark, g⟩]) = passed journal := by
    rw [passed_concat, passed_eq, List.append_nil]
  have initial' : initialNumber (journal ++ [⟨f, mark, g⟩]) = initialNumber journal := by
    rw [initialNumber_concat, initial_eq, Option.or_none]
  have finished' : finished (journal ++ [⟨f, mark, g⟩]) = finished journal := by
    rw [finished_concat, finish_eq]
    simp
  have held_eq : g.held = f.held := by
    unfold held
    rw [keeps.pending_eq]
    split
    · next pending => rw [keeps.latest_eq pending]
    · rfl
  obtain ⟨sequence, unchosen, silent, closed⟩ := h.numbered
  refine ⟨move.healthy h.healthy, move.consistent h.consistent, ?_, ⟨?_, ?_, ?_, ?_⟩, ?_⟩
  · rw [fetched', passed', held_eq, h.stream_eq]
  · intro notInitial isOpen
    obtain ⟨sequence_eq, remote_eq, isOpen', same | ⟨connected, connected'⟩⟩ := keeps.numbers isOpen
    · rw [initial', fetched', sequence_eq, remote_eq, same]
      exact sequence (same ▸ notInitial) isOpen'
    · obtain ⟨notInitial', notSent⟩ := not_initial_of_connected connected
      rw [initial', fetched', sequence_eq, remote_eq,
        if_neg (not_initial_of_connected connected').2]
      simpa [notSent] using sequence notInitial' isOpen'
  · intro initial
    obtain ⟨-, -, -, same | ⟨-, connected⟩⟩ := keeps.numbers (by simp [initial])
    · rw [initial']
      exact unchosen (same ▸ initial)
    · exact absurd initial (not_initial_of_connected connected).1
  · intro connecting
    have isOpen : g.phase ≠ .closed := by
      intro hc
      rw [hc] at connecting
      cases connecting
    obtain ⟨-, remote_eq, -, same | ⟨-, connected⟩⟩ := keeps.numbers isOpen
    · rw [fetched', passed', keeps.pending_eq, remote_eq]
      exact silent (same ▸ connecting)
    · rw [connected] at connecting
      cases connecting
  · intro hf
    by_cases isOpen : g.phase = .closed
    · exact .inl isOpen
    · obtain ⟨-, remote_eq, isOpen', -⟩ := keeps.numbers isOpen
      rw [remote_eq]
      exact .inr ((closed (finished' ▸ hf)).resolve_left isOpen')
  · intro pending
    rw [keeps.pending_eq] at pending
    obtain ⟨packet, segment, latest, rest⟩ := h.waiting pending
    rw [passed', initial']
    exact ⟨packet, segment, (keeps.latest_eq pending).trans latest, rest⟩

private theorem fetched_of_not_isRead {event : Event} (h : event.isRead = false) :
    event.fetched = [] := by
  cases event with
  | read _ _ _ => cases h
  | _ => rfl

private theorem not_isRead_pollerCall (r : Registration) (socket : SocketId)
    (wanted : Option Interest) (outcome : Outcome) :
    (r.pollerCall socket wanted outcome).isRead = false := by
  unfold Registration.pollerCall
  split <;> rfl

private theorem Cancels.not_isRead {registration : Registration} {call : Option Event}
    (h : f.Cancels registration call) : ∀ event ∈ call.toList, event.isRead = false := by
  cases h with
  | unknown _ => exact fun _ he => absurd he List.not_mem_nil
  | known _ _ => exact fun _ he => by simp_all [Event.isRead]

private theorem Emits.kept {flags : TcpFlags} {sent : Sent} (h : Emits flags f out sent g out')
    (hf : Healthy f) :
    g.pending = f.pending ∧ g.reply.latestData = f.reply.latestData ∧ g.sequence = f.sequence ∧
      g.remoteClosed = f.remoteClosed ∧ g.phase = f.phase := by
  obtain ⟨-, -, data⟩ := h.segment_eq hf
  have same := h.same
  exact ⟨same.pending_eq, by rw [Reply.latestData, data]; rfl, same.sequence_eq,
    same.remoteClosed_eq, same.phase_eq⟩

private theorem Reads.kept {size : Nat} (h : f.Reads size g) :
    g.pending = false ∧ f.pending = false ∧ g.sequence = f.sequence ∧ f.remoteClosed = false ∧
      g.remoteClosed = false ∧ g.phase = f.phase ∧ f.phase.isConnecting = false ∧
      f.phase ≠ .closed := by
  obtain ⟨-, remote, pending⟩ := h.permitted
  have same := h.same
  exact ⟨same.pending_eq.trans pending, pending, same.sequence_eq, remote,
    same.remoteClosed_eq.trans remote, same.phase_eq, h.connected, h.isOpen⟩

private theorem Downlink.next_number {size : Nat} (h : Downlink journal f) (reads : f.Reads size g) :
    fetched journal = passed journal ∧ ∃ n, initialNumber journal = some n ∧
      f.sequence = n + 1 + (fetched journal).length.toUInt32 := by
  obtain ⟨-, idle, -, remote, -, -, connected, isOpen⟩ := reads.kept
  obtain ⟨notInitial, notSent⟩ := not_initial_of_connected connected
  obtain ⟨n, hn, sequence⟩ := h.numbered.sequence_eq notInitial isOpen
  -- The socket is read only while no packet waits, so that all that was read has been passed on.
  have stream := h.stream_eq
  rw [held, idle, if_neg Bool.false_ne_true, List.append_nil] at stream
  rw [if_neg notSent, remote, if_neg Bool.false_ne_true, UInt32.add_zero] at sequence
  exact ⟨stream, n, hn, sequence⟩

private theorem Ends.reads {ending : Ending} (h : Ends stimulus f out ending g out') {event : Event}
    (he : event ∈ ending.calls f.socket) (isRead : event.isRead = true) :
    ∃ size kind g', event = .read f.socket size (.error kind) ∧ f.Reads size g' := by
  have aside {event' : Event} (he : event = event') (other : event'.isRead = false) :
      ∃ size kind g', event = .read f.socket size (.error kind) ∧ f.Reads size g' := by
    rw [he, other] at isRead
    cases isRead
  cases h with
  | resetByDevice _ _ _ => cases he
  | confirmed _ _ _ _ _ => cases he
  | finished _ _ _ _ => exact aside (List.mem_singleton.1 he) rfl
  | refused _ _ => exact aside (List.mem_singleton.1 he) (not_isRead_pollerCall ..)
  | disconnected _ => cases he
  | reset resets _ =>
    rcases List.mem_append.1 he with he | he
    · cases resets with
      | noRequest _ _ _ => cases he
      | request _ _ _ => cases he
      | connectError _ _ => exact aside (List.mem_singleton.1 he) rfl
      | noPeer _ _ =>
        simp only [Cause.calls, List.mem_cons, List.not_mem_nil, or_false] at he
        rcases he with he | he <;> exact aside he rfl
      | readError reads _ => exact ⟨_, _, _, List.mem_singleton.1 he, reads⟩
      | writeError _ _ => exact aside (List.mem_singleton.1 he) rfl
    · exact aside (List.mem_singleton.1 he) rfl

/-- Whatever a move reads, the flow was ready to read. -/
theorem Move.reads (move : Move stimulus ⟨f, r, out⟩ mark ⟨g, r', out'⟩) {event : Event}
    (he : event ∈ mark.calls f) (isRead : event.isRead = true) :
    ∃ size result g', event = .read f.socket size result ∧ f.Reads size g' := by
  have aside {event' : Event} (he : event = event') (other : event'.isRead = false) :
      ∃ size result g', event = .read f.socket size result ∧ f.Reads size g' := by
    rw [he, other] at isRead
    cases isRead
  cases move with
  | opened _ _ _ _ => cases he
  | reopened _ _ _ => cases he
  | acknowledged _ _ _ _ => cases he
  | missed reads _ => exact ⟨_, _, _, List.mem_singleton.1 he, reads⟩
  | delivered reads _ _ _ _ _ =>
    rcases List.mem_cons.1 he with he | he
    · exact ⟨_, _, _, he, reads⟩
    · rcases List.mem_cons.1 he with he | he
      · exact aside he rfl
      · split at he
        · cases he
        · exact aside (List.mem_singleton.1 he) rfl
  | retried _ _ _ _ =>
    rcases List.mem_cons.1 he with he | he
    · exact aside he rfl
    · split at he
      · cases he
      · exact aside (List.mem_singleton.1 he) rfl
  | exhausted reads _ =>
    rcases List.mem_cons.1 he with he | he
    · exact ⟨_, _, _, he, reads⟩
    · exact aside (List.mem_singleton.1 he) rfl
  | told _ _ => exact aside (List.mem_singleton.1 he) (not_isRead_pollerCall ..)
  | closed _ ends cancels =>
    rcases List.mem_append.1 he with he | he
    · obtain ⟨size, kind, g', rfl, reads⟩ := ends.reads he isRead
      exact ⟨size, _, g', rfl, reads⟩
    · rw [cancels.not_isRead event he] at isRead
      cases isRead
  | _ =>
    simp only [Mark.calls, List.mem_cons, List.not_mem_nil, or_false] at he
    rcases he with rfl | rfl | rfl <;> cases isRead

private theorem Move.fetched_of_data (move : Move stimulus ⟨f, r, out⟩ mark ⟨g, r', out'⟩)
    (data : mark.data? = none) : (mark.calls f).flatMap Event.fetched = [] := by
  cases move with
  | delivered _ _ _ _ _ _ => cases data
  | retried _ _ _ _ => cases data
  | told _ _ =>
    simp only [Mark.calls, List.flatMap_singleton]
    exact fetched_of_not_isRead (not_isRead_pollerCall ..)
  | closed _ ends cancels =>
    rw [List.flatMap_eq_nil_iff]
    intro event he
    rcases List.mem_append.1 he with he | he
    · cases isRead : event.isRead with
      | false => exact fetched_of_not_isRead isRead
      | true =>
        obtain ⟨_, _, _, rfl, -⟩ := ends.reads he isRead
        rfl
    · exact fetched_of_not_isRead (cancels.not_isRead event he)
  | _ => rfl

private theorem Ends.keeps (hf : Healthy f) {ending : Ending}
    (h : Ends stimulus f out ending g out') (registration : Registration) :
    Keeps f { g with phase := .closed, registration } := by
  suffices same : g.pending = f.pending ∧
      (f.pending = true → g.reply.latestData = f.reply.latestData) from
    ⟨same.1, same.2, fun isOpen => absurd rfl isOpen⟩
  cases h with
  | resetByDevice _ _ _ => exact ⟨rfl, fun _ => rfl⟩
  | confirmed _ _ _ _ _ => exact ⟨rfl, fun _ => rfl⟩
  | finished _ _ _ emits =>
    obtain ⟨pending, latest, -⟩ := emits.kept ⟨hf.sound, hf.plain, hf.protocol_eq⟩
    exact ⟨pending, fun _ => latest⟩
  | refused _ _ => exact ⟨rfl, fun _ => rfl⟩
  | disconnected _ => exact ⟨rfl, fun _ => rfl⟩
  | reset resets emits =>
    obtain ⟨pending, latest, -⟩ := emits.kept (resets.healthy hf)
    cases resets with
    | noRequest _ _ _ => exact ⟨pending, fun _ => latest⟩
    | request _ _ _ => exact ⟨pending, fun _ => latest⟩
    | connectError _ _ => exact ⟨pending, fun _ => latest⟩
    | noPeer _ _ => exact ⟨pending, fun _ => latest⟩
    | readError reads _ =>
      obtain ⟨idle', idle, -⟩ := reads.kept
      exact ⟨(pending.trans idle').trans idle.symm, fun waits => by simp [idle] at waits⟩
    | writeError _ _ => exact ⟨pending, fun _ => latest⟩

private theorem passed_of_sent (mark : Mark) {sent : Sent} {segment : Segment}
    (hs : Segment.ofPacket sent.packet = .ok (some segment)) (hd : mark.data? = some sent) :
    mark.passed = if sent.taken then segment.payload else [] := by
  simp only [Mark.passed, hd, Packet.carried, hs]

private theorem Downlink.opened {segment : Segment} {initial : UInt32} (h : Downlink journal f)
    (move : Move stimulus ⟨f, r, out⟩ (.opened segment initial) ⟨g, r', out'⟩)
    (phase : f.phase = .initial)
    (hg : g = { f with
      expected := segment.sequence + 1
      sequence := initial
      confirmed := initial
      window := segment.window
      phase := .synSent }) :
    Downlink (journal ++ [⟨f, .opened segment initial, g⟩]) g := by
  obtain ⟨nothing, nothing', idle, remote⟩ := h.numbered.silent (by rw [phase]; rfl)
  have unchosen := h.numbered.unchosen phase
  have fetched' : fetched (journal ++ [⟨f, .opened segment initial, g⟩]) = [] := by
    rw [fetched_concat, nothing]
    rfl
  have passed' : passed (journal ++ [⟨f, .opened segment initial, g⟩]) = [] := by
    rw [passed_concat, nothing']
    rfl
  subst hg
  refine ⟨move.healthy h.healthy, move.consistent h.consistent, ?_, ⟨?_, ?_, ?_, ?_⟩, ?_⟩
  · rw [fetched', passed', held, idle]
    rfl
  · intro _ _
    rw [initialNumber_concat, unchosen, fetched', remote]
    exact ⟨initial, rfl, by simp⟩
  · intro initial
    cases initial
  · exact fun _ => ⟨fetched', passed', idle, remote⟩
  · intro hf
    rw [finished_concat] at hf
    have hc := h.numbered.closed (by simpa [Mark.finish?] using hf)
    simp [phase, remote] at hc
  · exact fun waits => absurd (idle.symm.trans waits) Bool.false_ne_true

private theorem Downlink.connected {sent : Sent} {g' : TcpFlow} (h : Downlink journal f)
    (move : Move stimulus ⟨f, r, out⟩ (.connected sent) ⟨g, r', out'⟩) (phase : f.phase = .synSent)
    (emits : Emits (.syn ∪ .ack) { f with phase := .synReceived } out sent g' out')
    (hg : g = { g' with sequence := g'.sequence + 1 }) :
    Downlink (journal ++ [⟨f, .connected sent, g⟩]) g := by
  obtain ⟨nothing, nothing', idle, remote⟩ := h.numbered.silent (by rw [phase]; rfl)
  obtain ⟨n, hn, sequence_eq⟩ := h.numbered.sequence_eq (by simp [phase]) (by simp [phase])
  rw [if_pos phase, nothing, remote] at sequence_eq
  have hf := h.healthy
  obtain ⟨pending', -, sequence', remote', phase'⟩ :=
    emits.kept ⟨hf.sound, hf.plain, hf.protocol_eq⟩
  have fetched' : fetched (journal ++ [⟨f, .connected sent, g⟩]) = [] := by
    rw [fetched_concat, nothing]
    rfl
  have passed' : passed (journal ++ [⟨f, .connected sent, g⟩]) = [] := by
    rw [passed_concat, nothing']
    rfl
  have same : g.pending = false ∧ g.remoteClosed = false ∧ g.phase = .synReceived ∧
      g.sequence = f.sequence + 1 := by
    subst hg
    exact ⟨pending'.trans idle, remote'.trans remote, phase', by rw [← sequence']⟩
  obtain ⟨idle', remote', phase', next_eq⟩ := same
  refine ⟨move.healthy h.healthy, move.consistent h.consistent, ?_, ⟨?_, ?_, ?_, ?_⟩, ?_⟩
  · rw [fetched', passed', held, idle']
    rfl
  · intro _ _
    rw [initialNumber_concat, hn, fetched', phase', remote', next_eq, sequence_eq]
    exact ⟨n, rfl, by simp⟩
  · intro initial
    cases phase'.symm.trans initial
  · intro connecting
    rw [phase'] at connecting
    cases connecting
  · intro hf
    rw [finished_concat] at hf
    have hc := h.numbered.closed (by simpa [Mark.finish?] using hf)
    simp [phase, remote] at hc
  · exact fun waits => absurd (idle'.symm.trans waits) Bool.false_ne_true

private theorem Downlink.delivered {size : Nat} {payload : Bytes} {sent : Sent} {reply' : Reply}
    {g' : TcpFlow} (h : Downlink journal f)
    (move : Move stimulus ⟨f, r, out⟩ (.delivered size payload sent) ⟨g, r', out'⟩)
    (reads : f.Reads size g') {reply : Reply}
    (committed : g'.reply.commit payload payload.length = .ok reply)
    (completed : reply.completeData = .ok (sent.packet, reply'))
    (hg : g = { g' with
      reply := reply'
      sequence := g'.sequence + payload.length.toUInt32
      pending := !sent.taken }) :
    Downlink (journal ++ [⟨f, .delivered size payload sent, g⟩]) g := by
  obtain ⟨hs, -, latest⟩ := reads.segment_eq h.healthy committed completed
  obtain ⟨-, -, sequence', remote, remote', phase, connected, isOpen⟩ := reads.kept
  obtain ⟨notInitial, notSent⟩ := not_initial_of_connected connected
  obtain ⟨stream, n, hn, sequence_eq⟩ := h.next_number reads
  have passed' := passed_of_sent (.delivered size payload sent) hs rfl
  have fetched' : fetched (journal ++ [⟨f, .delivered size payload sent, g⟩]) =
      fetched journal ++ payload := by
    rw [fetched_concat]
    simp only [Mark.calls]
    split <;> simp [Event.fetched, Sent.call]
  have initial' : initialNumber (journal ++ [⟨f, .delivered size payload sent, g⟩]) = some n := by
    rw [initialNumber_concat, hn]
    rfl
  have same : g.phase = f.phase ∧ g.remoteClosed = false ∧ g.pending = !sent.taken ∧
      g.reply = reply' ∧ g.sequence = f.sequence + payload.length.toUInt32 := by
    subst hg
    exact ⟨phase, remote', rfl, rfl, by rw [← sequence']⟩
  obtain ⟨phase_eq, remote_eq, pending_eq, reply_eq, next_eq⟩ := same
  refine ⟨move.healthy h.healthy, move.consistent h.consistent, ?_, ⟨?_, ?_, ?_, ?_⟩, ?_⟩
  -- A payload that was read is either passed on or held back.
  · rw [fetched', passed_concat, passed', stream, held, pending_eq, reply_eq, latest]
    cases sent.taken <;> simp [Packet.carried, hs, segment]
  · intro _ _
    rw [initial', fetched', next_eq, phase_eq, remote_eq, if_neg notSent, sequence_eq]
    refine ⟨n, rfl, ?_⟩
    simp [Nat.toUInt32, UInt32.ofNat_add, UInt32.add_assoc]
  · intro initial
    exact absurd (phase_eq.symm.trans initial) notInitial
  · intro connecting
    rw [phase_eq, connected] at connecting
    cases connecting
  · intro hf
    rw [finished_concat] at hf
    rcases h.numbered.closed (by simpa [Mark.finish?] using hf) with hc | hc
    · exact absurd hc isOpen
    · rw [remote] at hc
      cases hc
  · intro pending
    have refused : sent.taken = false := by simpa [pending_eq] using pending
    refine ⟨sent.packet, _, reply_eq ▸ latest, hs, rfl, n, initial', ?_⟩
    rw [passed_concat, passed', refused, if_neg Bool.false_ne_true, List.append_nil, ← stream]
    exact sequence_eq

private theorem Downlink.retried {sent : Sent} (h : Downlink journal f)
    (move : Move stimulus ⟨f, r, out⟩ (.retried sent) ⟨g, r', out'⟩) (pending : f.pending = true)
    (latest : f.reply.latestData = .ok sent.packet)
    (hg : g = { f with pending := !sent.taken }) :
    Downlink (journal ++ [⟨f, .retried sent, g⟩]) g := by
  obtain ⟨packet, segment, latest', hs, flags, n, hn, sequence⟩ := h.waiting pending
  obtain rfl : packet = sent.packet := Except.ok.inj (latest'.symm.trans latest)
  have connected : f.phase.isConnecting = false := by
    cases hc : f.phase.isConnecting with
    | false => rfl
    | true => simp [h.numbered.silent hc] at pending
  obtain ⟨notInitial, notSent⟩ := not_initial_of_connected connected
  have passed' := passed_of_sent (.retried sent) hs rfl
  have fetched' : fetched (journal ++ [⟨f, .retried sent, g⟩]) = fetched journal := by
    rw [fetched_concat]
    simp only [Mark.calls]
    split <;> simp [Event.fetched, Sent.call]
  have initial' : initialNumber (journal ++ [⟨f, .retried sent, g⟩]) = initialNumber journal := by
    rw [initialNumber_concat]
    exact Option.or_none
  have stream := h.stream_eq
  rw [held, if_pos pending, latest] at stream
  subst hg
  refine ⟨move.healthy h.healthy, move.consistent h.consistent, ?_, ⟨?_, ?_, ?_, ?_⟩, ?_⟩
  · rw [fetched', passed_concat, passed', stream, held, latest]
    cases sent.taken <;> simp [Packet.carried, hs]
  · rw [initial', fetched']
    exact h.numbered.sequence_eq
  · intro initial
    exact absurd initial notInitial
  · intro connecting
    exact absurd (connected.symm.trans connecting) Bool.false_ne_true
  · intro hf
    rw [finished_concat] at hf
    exact h.numbered.closed (by simpa [Mark.finish?] using hf)
  · intro waits
    have refused : sent.taken = false := by simpa using waits
    refine ⟨sent.packet, segment, latest, hs, flags, n, initial'.trans hn, ?_⟩
    rw [passed_concat, passed', refused, if_neg Bool.false_ne_true, List.append_nil, sequence]

private theorem Downlink.exhausted {size : Nat} {sent : Sent} {g' g'' : TcpFlow}
    (h : Downlink journal f) (move : Move stimulus ⟨f, r, out⟩ (.exhausted size sent) ⟨g, r', out'⟩)
    (reads : f.Reads size g')
    (emits : Emits (.fin ∪ .ack) { g' with remoteClosed := true } out sent g'' out')
    (hg : g = { g'' with sequence := g''.sequence + 1, phase := g''.phase.remoteFinished }) :
    Downlink (journal ++ [⟨f, .exhausted size sent, g⟩]) g := by
  have hg' := reads.healthy h.healthy
  obtain ⟨idle', -, sequence', -, -, -, connected, -⟩ := reads.kept
  obtain ⟨idle'', -, sequence'', remote'', -⟩ :=
    emits.kept ⟨hg'.sound, hg'.plain, hg'.protocol_eq⟩
  obtain ⟨stream, n, hn, sequence_eq⟩ := h.next_number reads
  have fetched' : fetched (journal ++ [⟨f, .exhausted size sent, g⟩]) = fetched journal := by
    rw [fetched_concat]
    simp [Mark.calls, Event.fetched, Sent.call]
  have passed' : passed (journal ++ [⟨f, .exhausted size sent, g⟩]) = passed journal := by
    rw [passed_concat]
    exact List.append_nil _
  have initial' : initialNumber (journal ++ [⟨f, .exhausted size sent, g⟩]) = some n := by
    rw [initialNumber_concat, hn]
    rfl
  have still := move.stays_connected connected
  have same : g.pending = false ∧ g.remoteClosed = true ∧ g.sequence = f.sequence + 1 := by
    subst hg
    exact ⟨idle''.trans idle', remote'', by rw [← sequence', ← sequence'']⟩
  obtain ⟨idle, remote_eq, next_eq⟩ := same
  refine ⟨move.healthy h.healthy, move.consistent h.consistent, ?_, ⟨?_, ?_, ?_, ?_⟩, ?_⟩
  · rw [fetched', passed', held, idle, if_neg Bool.false_ne_true, List.append_nil, stream]
  · intro _ _
    rw [initial', fetched', next_eq, remote_eq, if_neg (not_initial_of_connected still).2,
      sequence_eq]
    exact ⟨n, rfl, rfl⟩
  · intro initial
    exact absurd initial (not_initial_of_connected still).1
  · intro connecting
    exact absurd (still.symm.trans connecting) Bool.false_ne_true
  · intro _
    exact .inr remote_eq
  · intro waits
    exact absurd (idle.symm.trans waits) Bool.false_ne_true

private theorem Move.idle_of_isRead (move : Move stimulus ⟨f, r, out⟩ mark ⟨g, r', out'⟩)
    (pending : f.pending = true) : ∀ event ∈ mark.calls f, event.isRead = false := by
  intro event he
  cases isRead : event.isRead with
  | false => rfl
  | true =>
    obtain ⟨_, _, _, -, reads⟩ := move.reads he isRead
    exact absurd (reads.permitted.2.2.symm.trans pending) Bool.false_ne_true

theorem Move.downlink (h : Downlink journal f)
    (move : Move stimulus ⟨f, r, out⟩ mark ⟨g, r', out'⟩) :
    Downlink (journal ++ [⟨f, mark, g⟩]) g := by
  have move' := move
  have hf := h.healthy
  cases move with
  | opened _ phase _ _ => exact h.opened move' phase rfl
  | reopened _ phase _ =>
    refine h.aside move' ⟨rfl, fun _ => rfl, fun _ => ⟨rfl, rfl, ?_, .inl rfl⟩⟩ rfl rfl rfl rfl
    simp [phase]
  | unconnected phase _ =>
    refine h.aside move' ⟨rfl, fun _ => rfl, fun _ => ⟨rfl, rfl, ?_, .inl rfl⟩⟩ rfl rfl rfl rfl
    simp [phase]
  | connected phase emits => exact h.connected move' phase emits rfl
  | acknowledged _ inOrder _ _ =>
    exact h.aside move' ⟨rfl, fun _ => rfl, fun _ => ⟨rfl, rfl, inOrder.isOpen,
      .inr ⟨inOrder.connected, move'.stays_connected inOrder.connected⟩⟩⟩ rfl rfl rfl rfl
  | took _ inOrder _ _ _ pushed emits =>
    obtain ⟨pending, latest, sequence, remote, phase⟩ :=
      emits.kept ⟨hf.sound.push pushed, hf.plain, hf.protocol_eq⟩
    exact h.aside move' ⟨pending, fun _ => latest, fun _ => ⟨sequence, remote, inOrder.isOpen,
      .inl phase⟩⟩ rfl rfl rfl rfl
  | ended _ atEnd _ emits =>
    obtain ⟨pending, latest, sequence, remote, phase⟩ :=
      emits.kept ⟨hf.sound, hf.plain, hf.protocol_eq⟩
    exact h.aside move' ⟨pending, fun _ => latest, fun _ => ⟨sequence, remote, atEnd.isOpen,
      .inr ⟨atEnd.connected, move'.stays_connected atEnd.connected⟩⟩⟩ rfl rfl rfl rfl
  | missed reads _ =>
    obtain ⟨idle', idle, sequence, remote, remote', phase, -, isOpen⟩ := reads.kept
    exact h.aside move' ⟨idle'.trans idle.symm,
      fun waits => absurd (idle.symm.trans waits) Bool.false_ne_true,
      fun _ => ⟨sequence, remote'.trans remote.symm, isOpen, .inl phase⟩⟩ rfl rfl rfl rfl
  | delivered reads _ _ committed completed _ => exact h.delivered move' reads committed completed rfl
  | retried _ pending latest _ => exact h.retried move' pending latest rfl
  | exhausted reads emits => exact h.exhausted move' reads emits rfl
  | wrote writes _ _ =>
    exact h.aside move' ⟨rfl, fun _ => rfl, fun _ => ⟨rfl, rfl, writes.isOpen, .inl rfl⟩⟩ rfl rfl rfl
      rfl
  | blocked writes _ =>
    exact h.aside move' ⟨rfl, fun _ => rfl, fun _ => ⟨rfl, rfl, writes.isOpen, .inl rfl⟩⟩ rfl rfl rfl
      rfl
  | widened _ isOpen _ emits =>
    obtain ⟨pending, latest, sequence, remote, phase⟩ := emits.kept hf
    exact h.aside move' ⟨pending, fun _ => latest, fun _ => ⟨sequence, remote, isOpen, .inl phase⟩⟩
      rfl rfl rfl rfl
  | shut isOpen _ _ _ _ =>
    exact h.aside move' ⟨rfl, fun _ => rfl, fun _ => ⟨rfl, rfl, isOpen, .inl rfl⟩⟩ rfl rfl rfl rfl
  | told isOpen _ =>
    exact h.aside move' ⟨rfl, fun _ => rfl, fun _ => ⟨rfl, rfl, isOpen, .inl rfl⟩⟩
      (move'.fetched_of_data rfl) rfl rfl rfl
  | closed _ ends _ =>
    exact h.aside move' (ends.keeps hf _) (move'.fetched_of_data rfl) rfl rfl rfl

private theorem Downlink.data (h : Downlink journal f)
    (move : Move stimulus ⟨f, r, out⟩ mark ⟨g, r', out'⟩) {sent : Sent}
    (data : mark.data? = some sent) : ∃ n segment, initialNumber journal = some n ∧
      Segment.ofPacket sent.packet = .ok (some segment) ∧
      segment.sequence = n + 1 + (passed journal).length.toUInt32 ∧
      fetched (journal ++ [⟨f, mark, g⟩]) = passed journal ++ segment.payload := by
  cases move with
  | delivered reads _ _ committed completed _ =>
    cases data
    obtain ⟨stream, n, hn, sequence⟩ := h.next_number reads
    rw [stream] at sequence
    refine ⟨n, _, hn, (reads.segment_eq h.healthy committed completed).1, sequence, ?_⟩
    rw [fetched_concat, stream]
    simp only [Mark.calls]
    split <;> simp [Event.fetched, Sent.call, segment]
  | retried _ pending latest _ =>
    cases data
    obtain ⟨packet, segment, latest', hs, -, n, hn, sequence⟩ := h.waiting pending
    obtain rfl : packet = sent.packet := Except.ok.inj (latest'.symm.trans latest)
    refine ⟨n, segment, hn, hs, sequence, ?_⟩
    rw [fetched_concat, h.stream_eq, held, if_pos pending, latest]
    simp only [Mark.calls, Packet.carried, hs]
    split <;> simp [Event.fetched, Sent.call]
  | _ => cases data

private theorem Downlink.finish (h : Downlink journal f)
    (move : Move stimulus ⟨f, r, out⟩ mark ⟨g, r', out'⟩) {sent : Sent} {segment : Segment}
    (built : mark.built? = some sent) (hs : Segment.ofPacket sent.packet = .ok (some segment))
    (fin : segment.flags.has .fin = true) :
    mark.finish? = some sent ∧ mark.data? = none ∧ ∃ n, initialNumber journal = some n ∧
      segment.sequence = n + 1 + (fetched journal).length.toUInt32 := by
  have hf := h.healthy
  have flags {f' g' : TcpFlow} {flags : TcpFlags} {out out' : σ}
      (emits : Emits flags f' out sent g' out') (hf' : Healthy f') :
      (TcpFlags.ofBits flags.bits).has .fin = true := by
    have same := (emits.segment_eq hf').1.symm.trans hs
    simp only [Except.ok.injEq, Option.some.injEq] at same
    subst same
    exact fin
  cases move with
  | connected _ emits =>
    cases built
    exact absurd (flags emits ⟨hf.sound, hf.plain, hf.protocol_eq⟩) (by decide)
  | took _ _ _ _ _ pushed emits =>
    cases built
    exact absurd (flags emits ⟨hf.sound.push pushed, hf.plain, hf.protocol_eq⟩) (by decide)
  | ended _ _ _ emits =>
    cases built
    exact absurd (flags emits ⟨hf.sound, hf.plain, hf.protocol_eq⟩) (by decide)
  | delivered reads _ _ committed completed _ =>
    cases built
    have same := (reads.segment_eq hf committed completed).1.symm.trans hs
    simp only [Except.ok.injEq, Option.some.injEq] at same
    subst same
    exact absurd fin (by simp [TcpFlow.segment]; decide)
  | exhausted reads emits =>
    cases built
    refine ⟨rfl, rfl, ?_⟩
    have hg := reads.healthy hf
    obtain ⟨-, -, sequence', -⟩ := reads.kept
    obtain ⟨-, n, hn, sequence⟩ := h.next_number reads
    have same := (emits.segment_eq ⟨hg.sound, hg.plain, hg.protocol_eq⟩).1.symm.trans hs
    simp only [Except.ok.injEq, Option.some.injEq] at same
    subst same
    exact ⟨n, hn, sequence'.trans sequence⟩
  | widened _ _ _ emits =>
    cases built
    exact absurd (flags emits hf) (by decide)
  | closed _ ends _ =>
    cases ends with
    | finished _ _ _ emits =>
      cases built
      exact absurd (flags emits ⟨hf.sound, hf.plain, hf.protocol_eq⟩) (by decide)
    | reset resets emits =>
      cases built
      have := flags emits (resets.healthy hf)
      split at this <;> exact absurd this (by decide)
    | _ => cases built
  | _ => cases built

private theorem Downlink.data_of_finished (h : Downlink journal f)
    (move : Move stimulus ⟨f, r, out⟩ mark ⟨g, r', out'⟩) (hf : finished journal = true) :
    mark.data? = none := by
  cases move with
  | delivered reads _ _ _ _ _ =>
    obtain ⟨-, -, -, remote, -, -, -, isOpen⟩ := reads.kept
    rcases h.numbered.closed hf with closed | closed
    · exact absurd closed isOpen
    · exact absurd (remote.symm.trans closed) Bool.false_ne_true
  | retried isOpen pending _ _ =>
    have remote := (h.numbered.closed hf).resolve_left isOpen
    have sends := (h.consistent isOpen).pending_sends pending
    rw [(h.consistent isOpen).remoteClosed_eq] at remote
    cases hp : f.phase <;> simp_all [Phase.sendsPayload, Phase.afterRemote]
  | _ => rfl

theorem Fresh.downlink (hf : Fresh f) : Downlink [] f where
  healthy := hf.healthy
  consistent _ := hf.consistent
  stream_eq := by
    rw [held, hf.pending_eq]
    rfl
  numbered := by
    have remote : f.remoteClosed = false := by
      rw [hf.consistent.remoteClosed_eq, hf.phase_eq]
      rfl
    exact ⟨fun initial => absurd hf.phase_eq initial, fun _ => rfl,
      fun _ => ⟨rfl, rfl, hf.pending_eq, remote⟩, fun closed => by cases closed⟩
  waiting waits := absurd (hf.pending_eq.symm.trans waits) Bool.false_ne_true

private theorem Run.nothing_later (run : Run journal s) (split : journal = pre ++ step :: post)
    (finish : step.mark.finish?.isSome = true) (data : step.mark.data? = none) :
    fetched journal = fetched pre ∧ ∀ later ∈ post, later.mark.data? = none := by
  -- The packet that ends the stream carries no data, and none is built behind it.
  have quiet : ∀ later ∈ step :: post,
      later.mark.data? = none ∧ (later.mark.calls later.before).flatMap Event.fetched = [] := by
    intro later hl
    obtain ⟨first, second, hp⟩ := List.append_of_mem hl
    have isPrefix : (pre ++ first) ++ [later] <+: journal := ⟨second, by simp [split, hp]⟩
    obtain ⟨before, -, stimulus, r, r', out, out', move⟩ :=
      run.invariant_step (I := Downlink) Fresh.downlink Move.downlink isPrefix
    have none : later.mark.data? = none := by
      cases first with
      | nil =>
        obtain ⟨rfl, -⟩ := List.cons.inj hp
        exact data
      | cons _ _ =>
        obtain ⟨rfl, -⟩ := List.cons.inj hp
        exact before.data_of_finished move (by simp [finished, finish])
    exact ⟨none, move.fetched_of_data none⟩
  refine ⟨?_, fun later hl => (quiet later (List.mem_cons_of_mem _ hl)).1⟩
  have nothing : fetched (step :: post) = [] := by
    rw [fetched, calls, List.flatMap_assoc, List.flatMap_eq_nil_iff]
    exact fun later hl => (quiet later hl).2
  rw [split, fetched, calls, List.flatMap_append, List.flatMap_append]
  exact (congrArg (_ ++ ·) nothing).trans (List.append_nil _)

/-- In every run what the socket delivers reaches the device whole and in order. Packets are numbered
by what they carry, nothing is read while one of them waits, and the end of the stream is the last
to be built and comes behind all that was read. -/
theorem Run.downstream_intact (run : Run journal s) :
    Continues journal s ∧ fetched journal = passed journal ++ s.self.held ∧
    ∀ pre step post, journal = pre ++ step :: post →
      fetched (pre ++ [step]) = passed (pre ++ [step]) ++ step.after.held ∧
      (step.before.pending = true →
        ∀ event ∈ step.mark.calls step.before, event.isRead = false) ∧
      (∀ sent, step.mark.data? = some sent → ∃ n segment, initialNumber pre = some n ∧
        Segment.ofPacket sent.packet = .ok (some segment) ∧
        segment.sequence = n + 1 + (passed pre).length.toUInt32 ∧
        fetched (pre ++ [step]) = passed pre ++ segment.payload) ∧
      ∀ sent segment, step.mark.built? = some sent →
        Segment.ofPacket sent.packet = .ok (some segment) → segment.flags.has .fin = true →
        (∃ n, initialNumber pre = some n ∧
          segment.sequence = n + 1 + (fetched journal).length.toUInt32) ∧
        ∀ later ∈ post, later.mark.data? = none := by
  refine ⟨run.continues, ?_, ?_⟩
  · exact (run.invariant (I := Downlink) Fresh.downlink Move.downlink).stream_eq
  · rintro pre ⟨f, mark, g⟩ post split
    have isPrefix : pre ++ [⟨f, mark, g⟩] <+: journal := ⟨post, by simp [split]⟩
    obtain ⟨before, after, stimulus, r, r', out, out', move⟩ :=
      run.invariant_step (I := Downlink) Fresh.downlink Move.downlink isPrefix
    refine ⟨after.stream_eq, move.idle_of_isRead, fun sent => before.data move, ?_⟩
    intro sent segment built hs fin
    obtain ⟨finish, data, n, hn, sequence⟩ := before.finish move built hs fin
    obtain ⟨total, later⟩ := run.nothing_later split (by rw [finish]; rfl) data
    exact ⟨⟨n, hn, total ▸ sequence⟩, later⟩

/-- An answer that is refused at first and passed on later. -/
theorem downstream_intact_answer : ∃ journal, ∃ s : Scene TcpFlow Credit, Run journal s ∧
    passed journal = [104, 105] ∧ fetched journal = passed journal ++ s.self.held := by
  obtain ⟨journal, s, run, result⟩ := exists_run_of_enacts
    (p := fun events t => events.flatMap Event.fetched == [104, 105] && t.self.held == [])
    (show enacts (devicePacket .syn 0x110 0 []) { streamCapacity := 16 }
      { sockets := [(0, { arrivals := [.data [104, 105]] })] }
      [(⟨none⟩, .ofDevice .syn 0x110 0 []),
        (⟨none⟩, .ready { writable := true }),
        (⟨some 0⟩, .ofDevice .ack 0x111 0x1001 []),
        (⟨none⟩, .pull)] _ = true by
      decide +kernel)
  simp only [Bool.and_eq_true, beq_iff_eq] at result
  have stream := run.downstream_intact.2.1
  refine ⟨journal, s, run, ?_, stream⟩
  rw [result.2, List.append_nil, show fetched journal = _ from result.1] at stream
  exact stream.symm

end TcpFlow

end TunnelRelay
