import TunnelRelay.Proofs.Flow.Tcp.Course
import TunnelRelay.Proofs.Flow.Tcp.Emission

/-!
# Moving bytes is a sequence of moves

The two loops of a TCP flow, taken apart into moves. The loop that reads goes on until the flow must not
read or a read found nothing for now. The loop that writes goes on until nothing is left or a write was
refused, and nothing else writes.
-/

namespace TunnelRelay

open Act

namespace TcpFlow

variable {σ : Type} [Outlet σ] {stimulus : Stimulus} {s t u : Scene TcpFlow σ}
  {steps : List Step} {Q : Unit → Scene TcpFlow σ → Prop}

private theorem ensures_finishReading {g : TcpFlow} {size : Nat} {host : Host}
    (reads : s.self.Reads size g) (called : s.host.After [.read s.self.socket size (.ok [])] host)
    (h : ∀ steps t, Path stimulus s steps t → Downstream steps → Q () t) :
    Ensures finishReading { s with self := g, host } Q := by
  obtain ⟨sends, -, pending⟩ := reads.permitted
  have phase := reads.same.phase_eq
  replace pending : g.pending = false := reads.same.pending_eq.trans pending
  have finish (next : Phase) (hn : g.phase.remoteFinished = next) {host' : Host}
      (called' : s.host.After [.read s.self.socket size (.ok [])] host') :
      Ensures (sendFin next) { s with self := { g with remoteClosed := true }, host := host' }
        Q := by
    apply ensures_sendFin
    intro sent g' out host'' emits called''
    have move : Move stimulus ⟨s.self, s.registry, s.out⟩ (.exhausted size sent)
        ⟨{ g' with sequence := g'.sequence + 1, phase := g'.phase.remoteFinished }, s.registry,
          out⟩ := .exhausted reads emits
    have phase' : g'.phase = g.phase := emits.same.phase_eq
    rw [phase', hn] at move
    exact h _ _ (.move move (called'.trans called'')) (downstream_singleton rfl)
  simp only [finishReading, ensures_bind, ensures_say, ensures_modifySelf, maybeSendFin,
    ensures_self]
  rw [if_pos (by simp [pending])]
  split
  · next hp => exact finish .finWait1 (by rw [hp]; rfl) (called.note _)
  · next hp => exact finish .lastAck (by rw [hp]; rfl) (called.note _)
  · next other other' =>
    rw [← phase] at sends
    cases hp : g.phase <;> simp_all [Phase.sendsPayload]

private theorem missed_path {g : TcpFlow} {size : Nat} {kind : ErrorKind} {host : Host}
    (reads : s.self.Reads size g) (waits : kind = .wouldBlock ∨ kind = .interrupted)
    (called : s.host.After [.read s.self.socket size (.error kind)] host) :
    Path stimulus s [⟨s.self, .missed size kind, g⟩] { s with self := g, host } := by
  have move : Move stimulus ⟨s.self, s.registry, s.out⟩ (.missed size kind)
      ⟨g, s.registry, s.out⟩ := .missed reads waits
  exact .move move called

private theorem ensures_deliver {g : TcpFlow} {size : Nat} {payload : Bytes} {host : Host}
    (reads : s.self.Reads size g) (nonempty : payload ≠ []) (fits : payload.length ≤ size)
    (called : s.host.After [.read s.self.socket size (.ok payload)] host)
    (h : ∀ steps t, Path stimulus s steps t → Downstream steps → Q () t) :
    Ensures (deliver payload) { s with self := g, host } Q := by
  have pending : g.pending = false := reads.same.pending_eq.trans reads.permitted.2.2
  have key := reads.same.key_eq
  simp only [deliver, offerData, ensures_bind, ensures_self, ensures_liftM, ensures_say,
    ensures_modifySelf, ensures_offer]
  rintro reply committed ⟨packet, reply'⟩ completed length hl taken out offered
  obtain rfl := narrow32_eq hl
  have move : Move stimulus ⟨s.self, s.registry, s.out⟩
      (.delivered size payload ⟨packet, taken⟩) _ :=
    .delivered reads nonempty fits committed completed offered
  have called' := (called.note (.flow g.key (.towardsDevice payload.length))).record
    (show (Event.offer packet.bytes taken).isCall = true from rfl)
  split
  · next ht =>
    subst ht
    rw [afterOffer, if_pos rfl, Bool.not_true, ← pending] at move
    exact (ensures_pure _).2 (h _ _ (.move move called') (downstream_singleton rfl))
  · next ht =>
    obtain rfl : taken = false := by simpa using ht
    simp only [ensures_bind, ensures_say, ensures_modifySelf, ensures_self, ensures_await]
    have called'' := (called'.note (.flow g.key .waitingForRoom)).record
      (show (Event.await g.key).isCall = true from rfl)
    rw [afterOffer, if_neg Bool.false_ne_true, ← key] at move
    refine h _ _ (.move move ?_) (downstream_singleton rfl)
    rw [key] at called'' ⊢
    exact called''

/-- A reset is one move, by which the flow ends. -/
theorem ensures_reset_of_resets {cause : Cause} {g : TcpFlow} {host : Host}
    (isOpen : s.self.phase ≠ .closed) (resets : s.self.Resets stimulus cause g)
    (phase : g.phase = s.self.phase) (called : s.host.After (cause.calls s.self.socket) host)
    (h : ∀ sent call t, t.self.phase = .closed → t.self.ring = g.ring → t.self.Aware →
      call.toList.filterMap Event.writeResult? = [] →
      Move stimulus ⟨s.self, s.registry, s.out⟩ (.closed (.reset cause sent) call)
        ⟨t.self, t.registry, t.out⟩ →
      s.host.After ((Mark.closed (.reset cause sent) call).calls s.self) t.host → Q () t) :
    Ensures reset { s with self := g, host } Q := by
  refine ensures_reset (by simpa [phase] using isOpen) ?_
  intro sent g' out registration call host' emits cancels called'
  have move : Move stimulus ⟨s.self, s.registry, s.out⟩ (.closed (.reset cause sent) call) _ :=
    .closed isOpen (.reset resets emits) cancels
  refine h sent call _ rfl emits.same.ring_eq ?_ cancels.silent move ?_
  · exact emits.aware
  · simpa [Mark.calls, Ending.calls] using called.trans called'

/-- A reset that neither a read nor a write has caused. -/
theorem ensures_reset_aside {cause : Cause} {g : TcpFlow} {host : Host}
    (isOpen : s.self.phase ≠ .closed) (resets : s.self.Resets stimulus cause g)
    (phase : g.phase = s.self.phase) (called : s.host.After (cause.calls s.self.socket) host)
    (aside : ∀ sent call, (Mark.closed (.reset cause sent) call).isAside = true)
    (h : ∀ sent call t, Course stimulus s [⟨s.self, .closed (.reset cause sent) call, t.self⟩] t →
      Q () t) :
    Ensures reset { s with self := g, host } Q := by
  refine ensures_reset_of_resets isOpen resets phase called ?_
  intro sent call t _ _ _ _ move called'
  exact h sent call _ (.aside move called' (aside sent call))

/-- One read and what follows. The loop ends where the flow must not read or nothing was found. -/
theorem ensures_readRound (stimulus : Stimulus) {Q : Round Unit Unit → Scene TcpFlow σ → Prop}
    (again : ∀ steps t, Path stimulus s steps t → Downstream steps → Q (.again ()) t)
    (done : ∀ steps t, Path stimulus s steps t → Downstream steps → ReadOut steps t.self →
      Q (.done ()) t) :
    Ensures (readRound ()) s Q := by
  unfold readRound
  simp only [ensures_bind, ensures_self]
  split
  · next must =>
    refine (ensures_pure _).2 (done _ _ (.quiet (.refl _)) downstream_nil fun may => ?_)
    simp [may] at must
  · next may =>
    split
    · next full =>
      simp only [ensures_bind, ensures_say, ensures_pure]
      exact done _ _ (.quiet ((Host.After.refl _).note _)) downstream_nil
        fun _ room => absurd full room
    · next room =>
      simp only [ensures_bind, ensures_prepareHeader, ensures_self, ensures_liftM,
        ensures_modifySelf, ensures_call]
      rintro ⟨size, reply⟩ reserved
      generalize hg : ({ s.self.prepared (.ack ∪ .psh) with reply } : TcpFlow) = g
      have reads : s.self.Reads size g := ⟨by simpa using may, room, reply, reserved, hg.symm⟩
      have called := (Host.After.refl s.host).read s.self.socket size
      split
      · next hr =>
        rw [hr] at called
        simp only [ensures_bind, ensures_pure]
        exact ensures_finishReading reads called again
      · next bytes nonempty hr =>
        rw [hr] at called
        simp only [ensures_bind, ensures_pure]
        exact ensures_deliver reads (by simpa using nonempty) (Host.length_read_le hr) called again
      · next hr =>
        rw [hr] at called
        exact (ensures_pure _).2 (done _ _ (missed_path reads (.inl rfl) called)
          (downstream_singleton rfl) fun _ _ => rfl)
      · next hr =>
        rw [hr] at called
        exact (ensures_pure _).2
          (again _ _ (missed_path reads (.inr rfl) called) (downstream_singleton rfl))
      · next kind notBlocked notInterrupted hr =>
        rw [hr] at called
        simp only [ensures_bind, ensures_say, ensures_pure]
        have resets : s.self.Resets stimulus (.readError size kind) g :=
          .readError reads ⟨notBlocked, notInterrupted⟩
        refine ensures_reset_of_resets reads.isOpen resets reads.same.phase_eq (called.note _) ?_
        intro sent call t _ _ _ _ move called'
        exact again _ _ (.move move called') (downstream_singleton rfl)

/-- The loop that reads leaves nothing to read. -/
theorem ensures_processReceive (stimulus : Stimulus)
    (h : ∀ steps t, Path stimulus s steps t → Downstream steps → ReadOut steps t.self → Q () t) :
    Ensures processReceive s Q := by
  unfold processReceive
  simp only [ensures_bind, ensures_get]
  refine ensures_iterate (I := fun _ t => ∃ steps, Path stimulus s steps t ∧ Downstream steps) ?_
    ⟨[], .quiet (.refl _), downstream_nil⟩
  rintro ⟨⟩ t ⟨steps, ht, downstream⟩
  refine ensures_readRound stimulus ?_ ?_
  · intro more u hu downstream'
    exact ⟨_, ht.append hu, downstream.append downstream'⟩
  · intro more u hu downstream' readOut
    exact h _ _ (ht.append hu) (downstream.append downstream') (readOut.append _)

private structure Sends (stimulus : Stimulus) (s : Scene TcpFlow σ) (written : Nat)
    (steps : List Step) (t : Scene TcpFlow σ) : Prop where
  path : Path stimulus s steps t
  upstream : ∀ step ∈ steps, step.mark.isUpstream = true
  phase_eq : t.self.phase = s.self.phase
  advertised_eq : ∀ step ∈ steps, step.before.advertised = t.self.advertised
  counted : (∃ step ∈ steps, step.mark.isWrite = true) → 0 < written
  sound : s.self.ring.Sound → t.self.ring.Sound
  room : s.self.ring.Sound → (∃ step ∈ steps, step.mark.isWrite = true) →
    0 < t.self.ring.remaining

private theorem Sends.start (stimulus : Stimulus) (s : Scene TcpFlow σ) :
    Sends stimulus s 0 [] s where
  path := .quiet (.refl _)
  upstream := List.forall_mem_nil _
  phase_eq := rfl
  advertised_eq := List.forall_mem_nil _
  counted := fun ⟨_, listed, _⟩ => absurd listed List.not_mem_nil
  sound := id
  room := fun _ ⟨_, listed, _⟩ => absurd listed List.not_mem_nil

private theorem exists_isWrite_concat {step : Step}
    (h : ∃ other ∈ steps ++ [step], other.mark.isWrite = true) :
    (∃ other ∈ steps, other.mark.isWrite = true) ∨ step.mark.isWrite = true := by
  obtain ⟨other, listed, write⟩ := h
  rcases List.mem_append.1 listed with listed | listed
  · exact .inl ⟨other, listed, write⟩
  · exact .inr (List.mem_singleton.1 listed ▸ write)

private theorem Sends.blocked {written : Nat} {front : Bytes} {kind : ErrorKind} {host : Host}
    (h : Sends stimulus s written steps t) (writes : t.self.Writes front)
    (waits : kind = .wouldBlock ∨ kind = .interrupted)
    (called : t.host.After [.write t.self.socket front.length (.error kind)] host) :
    Sends stimulus s written (steps ++ [⟨t.self, .blocked front.length kind, t.self⟩])
      { t with host } := by
  have move : Move stimulus ⟨t.self, t.registry, t.out⟩ (.blocked front.length kind) _ :=
    .blocked writes waits
  refine ⟨h.path.append (.move move called), ?_, h.phase_eq, ?_, ?_, h.sound, ?_⟩
  · exact List.forall_mem_append.2 ⟨h.upstream, List.forall_mem_singleton.2 rfl⟩
  · exact List.forall_mem_append.2 ⟨h.advertised_eq, List.forall_mem_singleton.2 rfl⟩
  · intro write
    exact h.counted ((exists_isWrite_concat write).resolve_right Bool.false_ne_true)
  · intro sound write
    exact h.room sound ((exists_isWrite_concat write).resolve_right Bool.false_ne_true)

private theorem Sends.wrote {written : Nat} {front bytes : Bytes} {host : Host}
    (h : Sends stimulus s written steps t) (writes : t.self.Writes front) (nonempty : bytes ≠ [])
    (taken : bytes = front.take bytes.length)
    (called : t.host.After [.write t.self.socket front.length (.ok bytes)] host) :
    Sends stimulus s (written + bytes.length)
      (steps ++ [⟨t.self, .wrote front.length bytes,
        { t.self with ring := t.self.ring.drop bytes.length }⟩])
      { t with self := { t.self with ring := t.self.ring.drop bytes.length }, host } := by
  have move : Move stimulus ⟨t.self, t.registry, t.out⟩ (.wrote front.length bytes) _ :=
    .wrote writes nonempty taken
  have some := List.length_pos_iff.2 nonempty
  refine ⟨h.path.append (.move move called), ?_, h.phase_eq, ?_, fun _ => by omega, ?_, ?_⟩
  · exact List.forall_mem_append.2 ⟨h.upstream, List.forall_mem_singleton.2 rfl⟩
  · exact List.forall_mem_append.2 ⟨h.advertised_eq, List.forall_mem_singleton.2 rfl⟩
  · exact fun sound => (h.sound sound).drop
  · exact fun sound _ => writes.remaining_pos (h.sound sound) nonempty taken

private theorem ensures_reset_of_writeError {Q : Unit → Scene TcpFlow σ → Prop} {written : Nat}
    {front : Bytes} {result : Except ErrorKind Bytes} {host : Host}
    (sends : Sends stimulus s written steps t) (writes : t.self.Writes front)
    (hr : result = .ok [] ∨
      ∃ kind, result = .error kind ∧ kind ≠ .wouldBlock ∧ kind ≠ .interrupted)
    (called : t.host.After [.write t.self.socket front.length result] host)
    (failed : ∀ more u, Drains stimulus s more u → Q () u) : Ensures reset { t with host } Q := by
  have resets : t.self.Resets stimulus (.writeError front.length result) t.self :=
    .writeError writes hr
  refine ensures_reset_of_resets writes.isOpen resets rfl called ?_
  intro sent call u closed ring aware silent move called'
  refine failed _ _ ⟨sends.path.append (.move move called'), ?_, ?_, ?_, ?_, ?_⟩
  · intro step listed
    rcases List.mem_append.1 listed with listed | listed
    · exact .inl (sends.upstream step listed)
    · exact .inl (List.mem_singleton.1 listed ▸ rfl)
  · refine Settled.append _ (.inr ⟨result, ?_, ?_⟩)
    · simp only [lastWrite, calls, List.flatMap_singleton, Mark.calls, Ending.calls,
        List.filterMap_append, silent]
      rfl
    · refine hr.imp_right ?_
      rintro ⟨kind, hk, _, hi⟩
      exact ⟨kind, hk, hi⟩
  · exact fun isOpen => absurd closed isOpen
  · exact fun _ => aware
  · intro sound
    refine .of_tail ?_ (.of_forall_not ?_)
    · intro step listed relieves
      refine ⟨_, List.mem_cons_self, rfl, ?_⟩
      rw [ring]
      exact sends.room sound ⟨step, listed, relieves.1⟩
    · intro step listed relieves
      rw [List.mem_singleton.1 listed] at relieves
      exact absurd relieves.1 Bool.false_ne_true

private theorem ensures_writeRound {written : Nat}
    {Q : Round Nat (Option Nat) → Scene TcpFlow σ → Prop}
    (sends : Sends stimulus s written steps t) (connected : t.self.phase.isConnecting = false)
    (isOpen : t.self.phase ≠ .closed)
    (again : ∀ n more u, Sends stimulus s n more u → Q (.again n) u)
    (done : ∀ more u, Sends stimulus s written more u → Settled more u.self →
      Q (.done (some written)) u)
    (failed : ∀ more u, Drains stimulus s more u → Q (.done none) u) :
    Ensures (writeRound written) t Q := by
  unfold writeRound
  simp only [ensures_bind, ensures_self]
  split
  · next empty => exact (ensures_pure _).2 (done _ _ sends (.inl empty))
  · next nonempty =>
    simp only [ensures_bind, ensures_liftM, ensures_call]
    intro front hf
    have writes : t.self.Writes front := ⟨connected, isOpen, by simpa using nonempty, hf⟩
    have called := (Host.After.refl t.host).write t.self.socket front
    split
    · next hr =>
      rw [hr] at called
      simp only [ensures_bind, ensures_say, ensures_pure]
      exact ensures_reset_of_writeError sends writes (.inl rfl) (called.note _) failed
    · next taken nonempty' hr =>
      rw [hr] at called
      simp only [ensures_bind, ensures_modifySelf, ensures_pure]
      refine again _ _ _ (sends.wrote writes ?_ (Host.write_prefix hr) called)
      simpa using nonempty'
    · next hr =>
      rw [hr] at called
      have sends' := sends.blocked writes (.inl rfl) called
      refine (ensures_pure _).2 (done _ _ sends' (Settled.append _ (.inr ⟨_, rfl, .inr ?_⟩)))
      exact ⟨_, rfl, by decide⟩
    · next hr =>
      rw [hr] at called
      exact (ensures_pure _).2 (again _ _ _ (sends.blocked writes (.inr rfl) called))
    · next kind notBlocked notInterrupted hr =>
      rw [hr] at called
      simp only [ensures_bind, ensures_say, ensures_pure]
      exact ensures_reset_of_writeError sends writes (.inr ⟨kind, rfl, notBlocked, notInterrupted⟩)
        (called.note _) failed

/-- The socket is told of the end unless it knows or bytes are left. -/
theorem ensures_maybeShutWrite (stimulus : Stimulus) (idle : s.self.HalfClosed → Q () s)
    (shut : ∀ outcome host,
      Move stimulus ⟨s.self, s.registry, s.out⟩ (.shut outcome)
        ⟨{ s.self with writeShut := true }, s.registry, s.out⟩ →
      s.host.After [.shutdownWrite s.self.socket outcome] host →
      Q () { s with self := { s.self with writeShut := true }, host }) :
    Ensures maybeShutWrite s Q := by
  simp only [maybeShutWrite, ensures_bind, ensures_self]
  split
  · next due =>
    simp only [Bool.and_eq_true, Bool.not_eq_true', isClosed, beq_eq_false_iff_ne] at due
    obtain ⟨⟨⟨deviceClosed, writeShut⟩, drained⟩, isOpen⟩ := due
    simp only [ensures_bind, ensures_modifySelf, ensures_call]
    have called := (Host.After.refl s.host).shutdownWrite s.self.socket
    have move (outcome : Outcome) :
        Move stimulus ⟨s.self, s.registry, s.out⟩ (.shut outcome) _ :=
      .shut isOpen deviceClosed writeShut drained outcome
    split
    · next kind hr =>
      rw [hr] at called
      exact (ensures_say _).2 (shut _ _ (move (some kind)) (called.note _))
    · next hr =>
      have hr' : (Host.shutdownWrite s.self.socket s.host).1 = none := by
        cases ho : (Host.shutdownWrite s.self.socket s.host).1 with
        | none => rfl
        | some kind => exact absurd ho (hr kind)
      rw [hr'] at called
      exact (ensures_pure _).2 (shut _ _ (move none) called)
  · next notDue =>
    refine (ensures_pure _).2 (idle fun isOpen deviceClosed drained => ?_)
    simpa [deviceClosed, drained, isClosed, isOpen] using notDue

theorem ensures_maybeShutWrite_course (stimulus : Stimulus)
    (h : ∀ steps t, Course stimulus s steps t → t.self.HalfClosed → Q () t) :
    Ensures maybeShutWrite s Q := by
  refine ensures_maybeShutWrite stimulus (h _ _ (.quiet (.refl _))) ?_
  intro outcome host move called
  exact h _ _ (.aside move called rfl) fun _ _ _ => rfl

private theorem Sends.drains {written : Nat} {more : List Step}
    (sends : Sends stimulus s written steps t) (settled : Settled steps t.self)
    (rest : Course stimulus t more u) (aside : ∀ step ∈ more, step.mark.isAside = true)
    (halfClosed : u.self.HalfClosed) (aware : 0 < written → u.self.Aware)
    (invited : 0 < written → t.self.advertised = 0 →
      ∃ step ∈ more, step.mark.isInvitation = true ∧ step.after.ring = t.self.ring) :
    Drains stimulus s (steps ++ more) u := by
  refine ⟨sends.path.append rest.path, ?_, rest.settled settled, halfClosed, ?_, ?_⟩
  · intro step listed
    exact (List.mem_append.1 listed).imp (sends.upstream step) (aside step)
  · rintro ⟨step, listed, write⟩
    rcases List.mem_append.1 listed with listed | listed
    · exact aware (sends.counted ⟨step, listed, write⟩)
    · exact absurd write (Mark.not_isWrite_of_isAside (aside step listed) ▸ Bool.false_ne_true)
  · intro sound
    refine .of_tail ?_ (.of_forall_not ?_)
    · rintro step listed ⟨write, none⟩
      obtain ⟨later, listed', invites, ring⟩ := invited (sends.counted ⟨step, listed, write⟩)
        (sends.advertised_eq step listed ▸ none)
      exact ⟨later, listed', invites, ring ▸ sends.room sound ⟨step, listed, write⟩⟩
    · rintro step listed ⟨write, -⟩
      exact absurd write (Mark.not_isWrite_of_isAside (aside step listed) ▸ Bool.false_ne_true)

private theorem ensures_finishSend {written : Nat} (sends : Sends stimulus s written steps t)
    (settled : Settled steps t.self) (connected : t.self.phase.isConnecting = false)
    (isOpen : t.self.phase ≠ .closed) (h : ∀ more u, Drains stimulus s more u → Q () u) :
    Ensures (do
      say (.towardsNetwork written)
      if 0 < written && (← self).advertised == 0 then
        sendControl .ack
      maybeShutWrite) t Q := by
  simp only [ensures_bind, ensures_say, ensures_self]
  have noted := (Host.After.refl t.host).note (.flow t.self.key (.towardsNetwork written))
  split
  · next unaware =>
    simp only [Bool.and_eq_true, decide_eq_true_eq, beq_iff_eq] at unaware
    rw [ensures_bind]
    apply ensures_sendControl
    intro sent g out host emits called
    have move : Move stimulus ⟨t.self, t.registry, t.out⟩ (.widened sent) _ :=
      .widened connected isOpen unaware.2 emits
    have first : Course stimulus t [⟨t.self, .widened sent, g⟩] ⟨g, t.registry, out, host⟩ :=
      .aside move (noted.trans called) rfl
    have invites : (Mark.widened sent).isInvitation = true ∧ g.ring = t.self.ring :=
      ⟨rfl, emits.same.ring_eq⟩
    refine ensures_maybeShutWrite stimulus ?_ ?_
    · intro halfClosed
      refine h _ _ (sends.drains settled first ?_ halfClosed (fun _ => emits.aware) ?_)
      · exact List.forall_mem_singleton.2 rfl
      · exact fun _ _ => ⟨_, List.mem_cons_self, invites⟩
    · intro outcome host' shut called'
      refine h _ _ (sends.drains settled (first.append (.aside shut called' rfl)) ?_ ?_
        (fun _ => emits.aware) ?_)
      · exact List.forall_mem_cons.2 ⟨rfl, List.forall_mem_singleton.2 rfl⟩
      · exact fun _ _ _ => rfl
      · exact fun _ _ => ⟨_, List.mem_cons_self, invites⟩
  · next known =>
    have granted : 0 < written → t.self.advertised ≠ 0 := by simpa using known
    have aware (written : 0 < written) : t.self.Aware := fun none => absurd none (granted written)
    refine ensures_maybeShutWrite stimulus ?_ ?_
    · intro halfClosed
      refine h _ _ (sends.drains settled (.quiet noted) (List.forall_mem_nil _) halfClosed aware ?_)
      exact fun written none => absurd none (granted written)
    · intro outcome host shut called
      refine h _ _ (sends.drains settled (.aside shut (noted.trans called) rfl) ?_ ?_ aware ?_)
      · exact List.forall_mem_singleton.2 rfl
      · exact fun _ _ _ => rfl
      · exact fun written none => absurd none (granted written)

/-- Whatever it starts with, the loop that writes leaves nothing to write. -/
theorem ensures_processSend (stimulus : Stimulus)
    (connected : s.self.phase.isConnecting = false) (isOpen : s.self.phase ≠ .closed)
    (h : ∀ steps t, Drains stimulus s steps t → Q () t) : Ensures processSend s Q := by
  unfold processSend
  simp only [ensures_bind, ensures_get]
  refine ensures_iterate (I := fun written t => ∃ steps, Sends stimulus s written steps t) ?_
    ⟨[], .start stimulus s⟩
  rintro written t ⟨steps, sends⟩
  refine ensures_writeRound sends (sends.phase_eq ▸ connected) (sends.phase_eq ▸ isOpen) ?_ ?_ ?_
  · intro n more u sends'
    exact ⟨_, sends'⟩
  · intro more u sends' settled
    exact ensures_finishSend sends' settled (sends'.phase_eq ▸ connected) (sends'.phase_eq ▸ isOpen) h
  · intro more u drains
    exact (ensures_pure _).2 (h _ _ drains)

end TcpFlow

end TunnelRelay
