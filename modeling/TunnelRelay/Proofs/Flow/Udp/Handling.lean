import TunnelRelay.Proofs.Flow.Udp.Passage

/-!
# What a UDP flow does, move by move

Every reaction of a UDP flow that ends without a fault is a passage of moves.
-/

namespace TunnelRelay

open Act

theorem Host.send_eq_ok {h : Host} {id : SocketId} {bytes taken : Bytes}
    (hs : (h.send id bytes).1 = .ok taken) : taken = bytes := by
  change ((h.socket id).send bytes).1 = .ok taken at hs
  unfold Socket.send at hs
  split at hs
  · split at hs <;> cases hs
    rfl
  · cases hs
  · cases hs
    rfl

namespace UdpFlow

section

variable {σ : Type} {s : Scene UdpFlow σ} {Q : Unit → Scene UdpFlow σ → Prop}

@[simp]
theorem ensures_say (notice : FlowNotice) :
    Ensures (say notice) s Q ↔
      Q () { s with host := s.host.record (.notice (.flow s.self.key notice)) } := by
  simp [say]

@[simp]
theorem ensures_touch :
    Ensures touch s Q ↔ Q () { s with self := { s.self with idleSince := s.host.clock } } := by
  simp [touch]

theorem ensures_disconnect_of_open (isOpen : s.self.closed = false)
    (h : ∀ registration call host,
      s.self.registration.Cancels s.self.socket registration call →
      s.host.After call.toList host →
      Q () ⟨{ s.self with closed := true, registration },
        s.registry.erase s.self.registration.token, s.out, host⟩) :
    Ensures disconnect s Q := by
  simp only [disconnect, ensures_bind, ensures_self]
  rw [if_neg (by simp [isOpen])]
  simp only [ensures_bind, ensures_say, ensures_modifySelf]
  have noted := (Host.After.refl s.host).note (.flow s.self.key .closed)
  apply Registration.ensures_cancel
  · intro host unknown called
    exact h _ _ _ (.unknown unknown) (noted.trans called)
  · intro outcome host known called
    exact h _ _ _ (.known known outcome) (noted.trans called)

end

variable {σ : Type} [Outlet σ] {stimulus : Stimulus} {s t u : Scene UdpFlow σ} {steps : List Step}

/-- What a flow does of its own accord it may do in reaction to anything. -/
theorem Move.of_other {now : Nat} {a b : Stage σ} {mark : Mark} (h : Move .other now a mark b) :
    Move stimulus now a mark b := by
  cases h with
  | stored received _ _ => cases received
  | dropped received _ _ => cases received
  | forwarded sends popped => exact .forwarded sends popped
  | unsent sends waits => exact .unsent sends waits
  | missed receives waits => exact .missed receives waits
  | delivered receives committed completed offered =>
    exact .delivered receives committed completed offered
  | retried isOpen pending latest offered => exact .retried isOpen pending latest offered
  | told isOpen changed => exact .told isOpen changed
  | closed isOpen ends cancels =>
    refine .closed isOpen ?_ cancels
    cases ends with
    | sendError sends failed => exact .sendError sends failed
    | receiveError receives failed => exact .receiveError receives failed
    | refused changed kind => exact .refused changed kind
    | disconnected asked => cases asked

theorem Path.of_other (h : Path .other s steps t) : Path stimulus s steps t := by
  induction h with
  | quiet h => exact .quiet h
  | move move called => exact .move move.of_other called
  | append _ _ ih ih' => exact .append ih ih'

theorem Passage.of_other (h : Passage .other s steps t) : Passage stimulus s steps t := by
  induction h with
  | quiet h => exact .quiet h
  | aside move called notUp notDown => exact .aside move.of_other called notUp notDown
  | receiving path downstream readOut => exact .receiving path.of_other downstream readOut
  | sending path upstream settled => exact .sending path.of_other upstream settled
  | append _ _ ih ih' => exact .append ih ih'

def Reaches (stimulus : Stimulus) (s t : Scene UdpFlow σ) : Prop :=
  ∃ steps, Passage stimulus s steps t

namespace Reaches

theorem refl (s : Scene UdpFlow σ) : Reaches stimulus s s := ⟨[], .quiet (.refl _)⟩

theorem trans (h : Reaches stimulus s t) (h' : Reaches stimulus t u) : Reaches stimulus s u := by
  obtain ⟨first, passage⟩ := h
  obtain ⟨second, passage'⟩ := h'
  exact ⟨first ++ second, passage.append passage'⟩

theorem of_aside {mark : Mark} {g : UdpFlow} {r : Registry} {out : σ} {host : Host}
    (move : Move stimulus s.host.clock ⟨s.self, s.registry, s.out⟩ mark ⟨g, r, out⟩)
    (called : s.host.After (mark.calls s.self) host) (notUp : mark.isUpstream = false)
    (notDown : mark.isDownstream = false) : Reaches stimulus s ⟨g, r, out, host⟩ :=
  ⟨_, .aside move called notUp notDown⟩

end Reaches

theorem ensures_disconnect_of_ends {g : UdpFlow} {host : Host} {ending : Ending}
    {Q : Unit → Scene UdpFlow σ → Prop} (isOpen : s.self.closed = false)
    (ends : Ends stimulus s.self ending g) (called : s.host.After (ending.calls s.self.socket) host)
    (h : ∀ call g' r host', g'.closed = true →
      Move stimulus s.host.clock ⟨s.self, s.registry, s.out⟩ (.closed ending call) ⟨g', r, s.out⟩ →
      s.host.After ((Mark.closed ending call).calls s.self) host' → Q () ⟨g', r, s.out, host'⟩) :
    Ensures disconnect ⟨g, s.registry, s.out, host⟩ Q := by
  have isOpen' : g.closed = false := by
    cases ends <;> exact isOpen
  refine ensures_disconnect_of_open isOpen' ?_
  intro registration call host' cancels called'
  exact h call _ _ _ rfl (.closed isOpen ends cancels) (called.trans called')

theorem reaches_close (s : Scene UdpFlow σ) :
    Ensures disconnect s fun _ t => Reaches .disconnect s t := by
  cases closed : s.self.closed with
  | false =>
    refine ensures_disconnect_of_ends closed (.disconnected rfl) (.refl _) ?_
    exact fun _ _ _ _ _ move called => .of_aside move called rfl rfl
  | true =>
    simp only [disconnect, ensures_bind, ensures_self, if_pos closed, ensures_pure]
    exact .refl s

/-- A datagram is sent, or nothing is left to send for now. -/
theorem ensures_sendRound (stimulus : Stimulus) (isOpen : s.self.closed = false) :
    Ensures (sendRound ()) s fun r t => ∃ steps, Path stimulus s steps t ∧ Upstream steps ∧
      match r with
      | .again _ => t.self.closed = false
      | .done _ => Settled steps t.self := by
  simp only [sendRound, ensures_bind, ensures_self, ensures_liftM]
  intro front hf
  split
  · refine (ensures_pure _).2 ⟨[], .quiet (.refl _), List.forall_mem_nil _, fun _ waiting => ?_⟩
    rw [DatagramRing.isEmpty_of_front_eq_none hf] at waiting
    cases waiting
  next datagram =>
  simp only [ensures_bind, ensures_call]
  have sends : s.self.Sends datagram := ⟨isOpen, hf⟩
  have called := (Host.After.refl s.host).send s.self.socket datagram
  split
  · next taken hs =>
    simp only [ensures_bind, ensures_liftM, ensures_modifySelf, ensures_touch, ensures_pure]
    intro ring popped
    rw [hs, Host.send_eq_ok hs] at called
    rw [called.clock_eq]
    refine ⟨_, .move (.forwarded sends popped) called, List.forall_mem_singleton.2 rfl, isOpen⟩
  · next blocked =>
    rw [blocked] at called
    refine (ensures_pure _).2 ⟨_, .move (.unsent sends (.inl rfl)) called,
      List.forall_mem_singleton.2 rfl, fun _ _ => rfl⟩
  · next interrupted =>
    rw [interrupted] at called
    exact (ensures_pure _).2 ⟨_, .move (.unsent sends (.inr rfl)) called,
      List.forall_mem_singleton.2 rfl, isOpen⟩
  · next kind notBlocked notInterrupted failed =>
    rw [failed] at called
    simp only [ensures_bind, ensures_say, ensures_pure]
    have ends : Ends stimulus s.self (.sendError datagram kind) s.self :=
      .sendError sends ⟨notBlocked, notInterrupted⟩
    refine ensures_disconnect_of_ends isOpen ends (called.note _) ?_
    intro call g r host closed move called
    refine ⟨_, .move move called, List.forall_mem_singleton.2 rfl, fun isOpen' => ?_⟩
    exact absurd (closed.symm.trans isOpen') Bool.noConfusion

theorem ensures_processSend (stimulus : Stimulus) (isOpen : s.self.closed = false) :
    Ensures processSend s fun _ t => ∃ steps, Path stimulus s steps t ∧ Upstream steps ∧
      Settled steps t.self := by
  simp only [processSend, ensures_bind, ensures_get]
  refine ensures_iterate (I := fun _ t => (∃ steps, Path stimulus s steps t ∧ Upstream steps) ∧
    t.self.closed = false) ?_ ⟨⟨[], .quiet (.refl _), List.forall_mem_nil _⟩, isOpen⟩
  rintro - t ⟨⟨steps, path, upstream⟩, isOpen⟩
  refine (ensures_sendRound stimulus isOpen).mono ?_
  rintro (c | _) u ⟨more, path', upstream', result⟩
  · exact ⟨⟨_, path.append path', upstream.append upstream'⟩, result⟩
  · exact ⟨_, path.append path', upstream.append upstream', result.append steps⟩

theorem reaches_updateInterest (stimulus : Stimulus) (s : Scene UdpFlow σ) :
    Ensures updateInterest s fun _ t => Reaches stimulus s t := by
  simp only [updateInterest, ensures_bind, ensures_self]
  split
  · exact (ensures_pure _).2 (.refl s)
  next isOpen =>
  rw [Bool.not_eq_true] at isOpen
  rw [ensures_bind]
  apply Registration.ensures_update
  · intro _
    exact (ensures_modifySelf _).2 (.refl s)
  · intro changed host called
    exact (ensures_modifySelf _).2 (.of_aside (.told isOpen changed) called rfl rfl)
  · intro changed kind host called
    simp only [ensures_bind, ensures_say]
    have ends : Ends stimulus s.self (.refused _) s.self := .refused changed kind
    refine ensures_disconnect_of_ends isOpen ends (called.note _) ?_
    exact fun _ _ _ _ _ move called => .of_aside move called rfl rfl

def Stimulus.ofPacket (packet : Packet) : Stimulus :=
  match packet.payload with
  | .ok (some payload) => .datagram payload
  | _ => .other

/-- The payload of a packet goes into the ring, which then is emptied as far as the socket lets it. -/
theorem ensures_receive {packet : Packet} {Q : Unit → Scene UdpFlow σ → Prop}
    (ignored : s.self.closed = true ∨ packet.payload = .ok none → Q () s)
    (handled : ∀ payload stored ring, packet.payload = .ok (some payload) →
      s.self.closed = false → s.self.ring.push payload = .ok (stored, ring) → ∀ step steps t,
      step.mark = (if stored then .stored payload else .dropped payload) →
      Path .other { s with self := { s.self with idleSince := s.host.clock, ring } } steps t →
      Passage (.datagram payload) s (step :: steps) t → Q () t) :
    Ensures (receive packet) s Q := by
  simp only [receive, ensures_bind, ensures_self]
  split
  · next closed => exact (ensures_pure _).2 (ignored (.inl closed))
  next isOpen =>
  rw [Bool.not_eq_true] at isOpen
  simp only [ensures_bind, ensures_liftM]
  intro found hp
  split
  · exact (ensures_pure _).2 (ignored (.inr hp))
  next payload =>
  simp only [ensures_bind, ensures_touch, ensures_self, ensures_liftM, ensures_modifySelf]
  rintro ⟨stored, ring⟩ pushed
  have finish := handled payload stored ring hp isOpen pushed
  dsimp only
  cases stored with
  | true =>
    rw [if_pos rfl, ensures_bind]
    have move : Move (.datagram payload) s.host.clock ⟨s.self, s.registry, s.out⟩ (.stored payload) _ :=
      .stored rfl isOpen pushed
    have first : Path (.datagram payload) s [_] _ := .move move (.refl _)
    refine (ensures_processSend .other ?_).mono ?_
    · exact isOpen
    rintro _ t ⟨steps, path, upstream, settled⟩
    refine (reaches_updateInterest .other t).mono ?_
    rintro _ u ⟨more, passage⟩
    have sent : Passage (.datagram payload) s _ t := .sending (first.append path.of_other)
      (Upstream.append (List.forall_mem_singleton.2 rfl) upstream) (settled.append _)
    exact finish ⟨s.self, .stored payload, { s.self with idleSince := s.host.clock, ring }⟩
      (steps ++ more) u rfl (path.append passage.path) (sent.append passage.of_other)
  | false =>
    rw [if_neg Bool.false_ne_true]
    have move : Move (.datagram payload) s.host.clock ⟨s.self, s.registry, s.out⟩ (.dropped payload) _ :=
      .dropped rfl isOpen pushed
    have noted := Host.After.refl s.host |>.note (.flow s.self.key (.datagramsFull payload.length))
    refine (ensures_say _).2 ?_
    exact finish ⟨s.self, .dropped payload, { s.self with idleSince := s.host.clock, ring }⟩ [] _ rfl
      (.quiet noted) (.aside move noted rfl rfl)

theorem reaches_receive (packet : Packet) (s : Scene UdpFlow σ) :
    Ensures (receive packet) s fun _ t => Reaches (.ofPacket packet) s t := by
  refine ensures_receive (fun _ => .refl s) ?_
  intro payload stored ring hp isOpen pushed step steps t _ _ passage
  have received : Stimulus.ofPacket packet = .datagram payload := by
    rw [Stimulus.ofPacket, hp]
  exact ⟨_, received ▸ passage⟩

/-- A datagram that was received is made a packet and offered. -/
theorem ensures_deliver (stimulus : Stimulus) {size : Nat} {reply : Reply} {datagram : Bytes}
    {host : Host} (receives : s.self.Receives size reply)
    (called : s.host.After [.receive s.self.socket size (.ok datagram)] host) :
    Ensures (deliver datagram) ⟨{ s.self with reply }, s.registry, s.out, host⟩
      fun _ t => ∃ steps, Path stimulus s steps t ∧ Downstream steps := by
  simp only [deliver, ensures_bind, ensures_touch, ensures_self, ensures_liftM, ensures_modifySelf,
    ensures_say, ensures_offer]
  rintro reply' committed ⟨packet, reply''⟩ completed taken out offered
  rw [called.clock_eq]
  have move : Move stimulus s.host.clock ⟨s.self, s.registry, s.out⟩
      (.delivered size datagram ⟨packet, taken⟩) _ :=
    .delivered receives committed completed offered
  have offer := (called.note (.flow s.self.key (.datagramTowardsDevice datagram.length))).record
    (show (Event.offer packet.bytes taken).isCall = true from rfl)
  cases taken with
  | true =>
    rw [if_pos rfl]
    have idle : (!true) = s.self.pending := receives.idle.symm
    rw [idle] at move
    exact (ensures_pure _).2 ⟨_, .move move offer, List.forall_mem_singleton.2 rfl⟩
  | false =>
    rw [if_neg Bool.false_ne_true]
    simp only [ensures_bind, ensures_say, ensures_modifySelf, ensures_self, ensures_await]
    exact ⟨_, .move move ((offer.note _).record rfl), List.forall_mem_singleton.2 rfl⟩

/-- A datagram is received, or there is none to receive for now. -/
theorem ensures_receiveRound (stimulus : Stimulus) (s : Scene UdpFlow σ) :
    Ensures (receiveRound ()) s fun r t => ∃ steps, Path stimulus s steps t ∧ Downstream steps ∧
      (r = .done () → ReadOut steps t.self) := by
  simp only [receiveRound, ensures_bind, ensures_self]
  split
  · next due =>
    refine (ensures_pure _).2 ⟨[], .quiet (.refl _), List.forall_mem_nil _, fun _ isOpen idle => ?_⟩
    rw [idle, isOpen] at due
    cases due
  next due =>
  obtain ⟨idle, isOpen⟩ : s.self.pending = false ∧ s.self.closed = false := by simpa using due
  simp only [ensures_bind, ensures_liftM, ensures_modifySelf, ensures_call]
  rintro ⟨size, reply⟩ started
  have receives : s.self.Receives size reply := ⟨isOpen, idle, started⟩
  have called := (Host.After.refl s.host).receive s.self.socket size
  split
  · next datagram hr =>
    rw [hr] at called
    rw [ensures_bind]
    refine (ensures_deliver stimulus receives called).mono ?_
    rintro _ t ⟨steps, path, downstream⟩
    exact (ensures_pure _).2 ⟨steps, path, downstream, by rintro ⟨⟩⟩
  · next blocked =>
    rw [blocked] at called
    exact (ensures_pure _).2 ⟨_, .move (.missed receives (.inl rfl)) called,
      List.forall_mem_singleton.2 rfl, fun _ _ _ => rfl⟩
  · next interrupted =>
    rw [interrupted] at called
    exact (ensures_pure _).2 ⟨_, .move (.missed receives (.inr rfl)) called,
      List.forall_mem_singleton.2 rfl, by rintro ⟨⟩⟩
  · next kind notBlocked notInterrupted failed =>
    rw [failed] at called
    simp only [ensures_bind, ensures_say, ensures_pure]
    have ends : Ends stimulus s.self (.receiveError size kind) { s.self with reply } :=
      .receiveError receives ⟨notBlocked, notInterrupted⟩
    refine ensures_disconnect_of_ends isOpen ends (called.note _) ?_
    intro _ _ _ _ _ move called
    exact ⟨_, .move move called, List.forall_mem_singleton.2 rfl, by rintro ⟨⟩⟩

theorem ensures_processReceive (stimulus : Stimulus) (s : Scene UdpFlow σ) :
    Ensures processReceive s fun _ t => ∃ steps, Path stimulus s steps t ∧ Downstream steps ∧
      ReadOut steps t.self := by
  simp only [processReceive, ensures_bind, ensures_get]
  refine ensures_iterate (I := fun _ t => ∃ steps, Path stimulus s steps t ∧ Downstream steps) ?_
    ⟨[], .quiet (.refl _), List.forall_mem_nil _⟩
  rintro _ t ⟨steps, path, downstream⟩
  refine (ensures_receiveRound stimulus t).mono ?_
  rintro (_ | _) u ⟨more, path', downstream', result⟩
  · exact ⟨_, path.append path', downstream.append downstream'⟩
  · exact ⟨_, path.append path', downstream.append downstream', (result rfl).append steps⟩

theorem reaches_onReady (readiness : Readiness) (s : Scene UdpFlow σ) :
    Ensures (onReady readiness) s fun _ t => Reaches .other s t := by
  simp only [onReady, ensures_bind, ensures_self]
  have finish {t : Scene UdpFlow σ} (reached : Reaches .other s t) :
      Ensures updateInterest t fun _ u => Reaches .other s u :=
    (reaches_updateInterest .other t).mono fun _ u reached' => reached.trans reached'
  have receive {t : Scene UdpFlow σ} (reached : Reaches .other s t) : Ensures (do
      if readiness.readable then
        processReceive
      updateInterest) t fun _ u => Reaches .other s u := by
    split
    · rw [ensures_bind]
      refine (ensures_processReceive .other t).mono ?_
      rintro _ u ⟨steps, path, downstream, readOut⟩
      exact finish (reached.trans ⟨steps, .receiving path downstream readOut⟩)
    · exact finish reached
  split
  · exact (ensures_pure _).2 (.refl s)
  next isOpen =>
  split
  · rw [ensures_bind]
    refine (ensures_processSend .other (by simpa using isOpen)).mono ?_
    rintro _ t ⟨steps, path, upstream, settled⟩
    exact receive ⟨steps, .sending path upstream settled⟩
  · exact receive (.refl s)

/-- Room on the way out is used for the packet that waits before anything else. -/
theorem ensures_pull {Q : Unit → Scene UdpFlow σ → Prop}
    (idle : s.self.pending = false ∨ s.self.closed = true → Q () s)
    (retried : ∀ taken out host step,
      Path .other s [step] ⟨{ s.self with pending := !taken }, s.registry,
        s.self.afterOffer taken out, host⟩ →
      ∀ steps t, Path .other ⟨{ s.self with pending := !taken }, s.registry,
        s.self.afterOffer taken out, host⟩ steps t →
      Passage .other s (step :: steps) t → Q () t) :
    Ensures pull s Q := by
  simp only [pull, ensures_bind, ensures_self]
  split
  · next still =>
    rw [Bool.or_eq_true, Bool.not_eq_true'] at still
    exact (ensures_pure _).2 (idle still)
  next due =>
  obtain ⟨pending, isOpen⟩ : s.self.pending = true ∧ s.self.closed = false := by simpa using due
  simp only [ensures_bind, ensures_liftM, ensures_offer]
  intro packet latest taken out offered
  have move : Move .other s.host.clock ⟨s.self, s.registry, s.out⟩ (.retried ⟨packet, taken⟩) _ :=
    .retried isOpen pending latest offered
  have offer := (Host.After.refl s.host).record
    (show (Event.offer packet.bytes taken).isCall = true from rfl)
  have down : Downstream [⟨s.self, .retried ⟨packet, taken⟩, { s.self with pending := !taken }⟩] :=
    List.forall_mem_singleton.2 rfl
  cases taken with
  | true =>
    rw [if_pos rfl]
    simp only [ensures_bind, ensures_modifySelf]
    have first : Path .other s [_] _ := .move move offer
    refine (ensures_processReceive .other _).mono ?_
    rintro _ t ⟨steps, path, downstream, readOut⟩
    refine (reaches_updateInterest .other t).mono ?_
    rintro _ u ⟨more, passage⟩
    refine retried true out _ _ first (steps ++ more) u (path.append passage.path) ?_
    have received : Passage .other s _ t :=
      .receiving (first.append path) (down.append downstream) (readOut.append [_])
    exact received.append passage
  | false =>
    rw [if_neg Bool.false_ne_true]
    simp only [ensures_bind, ensures_await]
    have first : Path .other s [_] _ := .move move (offer.record rfl)
    have waiting : ({ s.self with pending := !false } : UdpFlow) = s.self := by
      rw [Bool.not_false, ← pending]
    refine (reaches_updateInterest .other _).mono ?_
    rintro _ t ⟨steps, passage⟩
    rw [← waiting] at passage
    have received : Passage .other s [_] _ := .receiving first down (by rintro - ⟨⟩)
    exact retried false out _ _ first steps t passage.path (received.append passage)

theorem reaches_pull (s : Scene UdpFlow σ) : Ensures pull s fun _ t => Reaches .other s t :=
  ensures_pull (fun _ => .refl s) fun _ _ _ _ _ _ _ _ passage => ⟨_, passage⟩

end UdpFlow

end TunnelRelay
