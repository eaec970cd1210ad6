import TunnelRelay.Proofs.Budget
import TunnelRelay.Proofs.Composing
import TunnelRelay.Proofs.Flow.Tcp.Run

/-!
# TCP flows stop at no fault

Whatever a flow that is fit reacts to, it does so without a fault, within the budget of its session,
and is fit afterwards. Its loops end because every round fills the device's window further, empties
the ring, or uses up what a socket still has to say.
-/

namespace TunnelRelay

open Act

namespace TcpFlow

@[simp]
theorem achieves_say {σ : Type} {s : Scene TcpFlow σ} {Q : Unit → Scene TcpFlow σ → Prop}
    (notice : FlowNotice) :
    Achieves (say notice) s Q ↔
      Q () { s with host := s.host.record (.notice (.flow s.self.key notice)) } := by
  simp [say]

/-- Ring and reply are in order, and a packet that waits can be found again. -/
structure Fit (f : TcpFlow) : Prop where
  sound : f.ring.Sound
  equipped : f.reply.Equipped
  waiting : f.pending = true → ∃ packet, f.reply.latestData = .ok packet

theorem Fit.congr {f g : TcpFlow} (h : f.Fit) (ring : g.ring = f.ring) (reply : g.reply = f.reply)
    (pending : g.pending = true → f.pending = true) : g.Fit :=
  ⟨ring ▸ h.sound, reply ▸ h.equipped, fun waits => reply ▸ h.waiting (pending waits)⟩

theorem Fit.prepared {f : TcpFlow} (h : f.Fit) (flags : TcpFlags) : (f.prepared flags).Fit := by
  have data (edit : TcpHeader → TcpHeader) : (f.reply.editTcp edit).data = f.reply.data := by
    unfold Reply.editTcp
    split <;> rfl
  refine ⟨h.sound, h.equipped.editTcp fun header => ⟨?_, ?_⟩, fun waits => ?_⟩
  · rw [TcpHeader.length_setWindow, TcpHeader.length_setAcknowledgement,
      TcpHeader.length_setSequence, TcpHeader.length_setFlags]
  · change (TcpHeader.fields _).headerLength = header.fields.headerLength
    simp only [TcpHeader.fields_setWindow, TcpHeader.fields_setAcknowledgement,
      TcpHeader.fields_setSequence, TcpHeader.fields_setFlags]
  · obtain ⟨packet, latest⟩ := h.waiting waits
    exact ⟨packet, by rw [← latest]; exact congrArg (fun slab => Packet.ofBytes slab.filled) (data _)⟩

/-- A flow that may read can start a packet, since none waits in its place. -/
theorem Fit.reserve_isOk {f : TcpFlow} (h : f.Fit) (reads : f.mayRead = true) (flags : TcpFlags)
    (limit : Nat) : ∃ data, (f.prepared flags).reply.reserve limit =
        .ok (min limit (f.prepared flags).reply.maxPayload, { (f.prepared flags).reply with data }) ∧
      Fit { f.prepared flags with reply := { (f.prepared flags).reply with data } } ∧
      data.filled = (f.prepared flags).reply.headers := by
  have idle : f.pending = false := by
    simp only [mayRead, Bool.and_eq_true, Bool.not_eq_true'] at reads
    exact reads.2
  have fit := h.prepared flags
  obtain ⟨data, reserved, equipped, filled⟩ := fit.equipped.reserve_isOk limit
  refine ⟨data, reserved, ⟨fit.sound, equipped, fun waits => ?_⟩, filled⟩
  cases idle.symm.trans waits

variable {s t : Scene TcpFlow Outbox}

theorem achieves_setPhase {phase : Phase} (works : Works Fit s t) :
    Achieves (setPhase phase) t fun _ u => Works Fit s u ∧
      (u.self.phase = phase ∧ u.self.remoteClosed = t.self.remoteClosed) := by
  simp only [setPhase, achieves_bind, achieves_self, achieves_say, achieves_modifySelf]
  exact ⟨works.record.become (works.fit.congr rfl rfl id), trivial, trivial⟩

theorem achieves_close (works : Works Fit s t) :
    Achieves close t fun _ u => Works Fit s u ∧ u.self.phase = .closed := by
  simp only [close, achieves_bind, achieves_self]
  split
  · next closed =>
    exact (achieves_pure _).2 ⟨works, by simpa [isClosed] using closed⟩
  · rw [achieves_bind]
    refine (achieves_setPhase works).mono ?_
    rintro _ u ⟨works, closed, -⟩
    rw [achieves_bind]
    refine (Registration.achieves_cancel _ _).mono ?_
    rintro registration _ ⟨registry, host, rfl, spends⟩
    rw [achieves_modifySelf]
    exact ⟨works.call (works.fit.congr rfl rfl id) spends, closed⟩

theorem achieves_updateInterest (works : Works Fit s t) :
    Achieves updateInterest t fun _ u => Works Fit s u := by
  simp only [updateInterest, achieves_bind, achieves_self]
  split
  · exact (achieves_pure _).2 works
  · rw [achieves_bind]
    refine (Registration.achieves_update _ _ _).mono ?_
    rintro (kind | registration) _ ⟨host, rfl, spends⟩
    · simp only [achieves_bind, achieves_say]
      exact (achieves_close (works.call works.fit spends).record).mono fun _ _ closed => closed.1
    · exact (achieves_modifySelf _).2 (works.call (works.fit.congr rfl rfl id) spends)

@[simp]
theorem achieves_prepareHeader {Q : Unit → Scene TcpFlow Outbox → Prop} (flags : TcpFlags) :
    Achieves (prepareHeader flags) s Q ↔ Q () { s with self := s.self.prepared flags } := by
  have fits : narrow16 s.self.windowToGrant = .ok s.self.windowToGrant.toUInt16 :=
    narrow16_eq_ok (by unfold windowToGrant; omega)
  simp [prepareHeader, fits, prepared]

theorem achieves_sendControl {flags : TcpFlags} (works : Works Fit s t) :
    Achieves (sendControl flags) t fun _ u => Works Fit s u ∧ SameState t.self u.self := by
  have fit := works.fit.prepared flags
  obtain ⟨packet, control, built, carries, equipped⟩ := fit.equipped.withoutPayload_isOk
  obtain ⟨text, described⟩ := (carries.judged fit.equipped.plain).describe_isOk
  simp only [sendControl, achieves_bind, achieves_prepareHeader, achieves_self, achieves_liftM,
    achieves_modifySelf, achieves_say]
  refine ⟨_, built, text, described, ?_⟩
  have fit' : Fit { t.self.prepared flags with
      reply := { (t.self.prepared flags).reply with control } } :=
    ⟨fit.sound, equipped, fit.waiting⟩
  refine (achieves_offer (works.call fit' (Host.spends_record _ _))).mono ?_
  rintro taken u ⟨works, same, -⟩
  have unchanged : SameState t.self u.self :=
    same ▸ ⟨rfl, rfl, rfl, rfl, rfl, rfl, rfl, rfl, rfl, rfl, rfl⟩
  split
  · exact (achieves_pure _).2 ⟨works, unchanged⟩
  · exact (achieves_say _).2 ⟨works.record, unchanged⟩

theorem achieves_reset (works : Works Fit s t) :
    Achieves reset t fun _ u => Works Fit s u ∧ u.self.phase = .closed := by
  simp only [reset, achieves_bind, achieves_self]
  split
  · next closed =>
    exact (achieves_pure _).2 ⟨works, by simpa [isClosed] using closed⟩
  · simp only [achieves_bind, achieves_say]
    refine (achieves_sendControl works.record).mono ?_
    exact fun _ _ sent => achieves_close sent.1

theorem achieves_sendFin {next : Phase} (works : Works Fit s t) :
    Achieves (sendFin next) t fun _ u => Works Fit s u ∧
      u.self.remoteClosed = t.self.remoteClosed := by
  simp only [sendFin, achieves_bind]
  refine (achieves_sendControl works).mono ?_
  rintro _ u ⟨works, same⟩
  rw [achieves_modifySelf]
  have sent : Works Fit s { u with self := { u.self with sequence := u.self.sequence + 1 } } :=
    works.become (works.fit.congr rfl rfl id)
  refine (achieves_setPhase sent).mono ?_
  exact fun _ _ set => ⟨set.1, set.2.2.trans same.remoteClosed_eq⟩

theorem achieves_maybeSendFin (works : Works Fit s t) :
    Achieves maybeSendFin t fun _ u => Works Fit s u ∧
      u.self.remoteClosed = t.self.remoteClosed := by
  simp only [maybeSendFin, achieves_bind, achieves_self]
  split
  · split
    · exact achieves_sendFin works
    · exact achieves_sendFin works
    · exact (achieves_pure _).2 ⟨works, rfl⟩
  · exact (achieves_pure _).2 ⟨works, rfl⟩

theorem achieves_maybeShutWrite (works : Works Fit s t) :
    Achieves maybeShutWrite t fun _ u => Works Fit s u := by
  simp only [maybeShutWrite, achieves_bind, achieves_self]
  split
  · simp only [achieves_bind, achieves_modifySelf, achieves_call]
    have fit : Fit { t.self with writeShut := true } := works.fit.congr rfl rfl id
    have spends := Host.spends_shutdownWrite t.host t.self.socket
    split
    · exact (achieves_say _).2 (works.call fit spends).record
    · exact (achieves_pure _).2 (works.call fit spends)
  · exact (achieves_pure _).2 works

-- What is left to write, and how often the socket will say how much it takes.
private def unwritten (s : Scene TcpFlow Outbox) : Nat :=
  s.self.ring.length + (s.host.socket s.self.socket).transfers.length

private theorem achieves_writeRound {written : Nat} (works : Works Fit s t) :
    Achieves (writeRound written) t (Progress (fun _ => Works Fit s) (fun _ => unwritten)
      (fun _ => Works Fit s) (unwritten t)) := by
  have sound := works.fit.sound
  simp only [writeRound, achieves_bind, achieves_self]
  split
  · exact (achieves_pure _).2 works
  next nonempty =>
  obtain ⟨front, front_eq⟩ := sound.front_isOk
  have called : Works Fit s { t with host := (Host.write t.self.socket front t.host).2 } :=
    works.call works.fit (Host.spends_write _ _ _)
  simp only [achieves_bind, achieves_liftM, achieves_call]
  refine ⟨front, front_eq, ?_⟩
  split
  · simp only [achieves_bind, achieves_say]
    refine (achieves_reset called.record).mono ?_
    exact fun _ u reset => (achieves_pure _).2 reset.1
  · next taken nonempty' hr =>
    have less := StreamRing.length_drop_written sound (by simpa using nonempty) front_eq hr nonempty'
    have spends := Host.spends_write t.host t.self.socket front
    have transfers := (spends.socket t.self.socket).transfers_le
    simp only [achieves_bind, achieves_modifySelf, achieves_pure, progress_again]
    refine ⟨called.become ⟨sound.drop, works.fit.equipped, works.fit.waiting⟩, ?_⟩
    exact Nat.add_lt_add_of_lt_of_le less transfers
  · exact (achieves_pure _).2 called
  · next hr =>
    refine (achieves_pure _).2 ⟨called, ?_⟩
    exact Nat.add_lt_add_left (Host.transfers_write_lt hr (by decide)) _
  · simp only [achieves_bind, achieves_say]
    refine (achieves_reset called.record).mono ?_
    exact fun _ u reset => (achieves_pure _).2 reset.1

theorem achieves_processSend (works : Works Fit s t) :
    Achieves processSend t fun _ u => Works Fit s u := by
  simp only [processSend, achieves_bind, achieves_get]
  refine (achieves_iterate (fun _ _ => achieves_writeRound) works (Nat.lt_succ_self _)).mono ?_
  rintro (_ | written) u works
  · exact (achieves_pure _).2 works
  · simp only [achieves_bind, achieves_say, achieves_self]
    split
    · rw [achieves_bind]
      refine (achieves_sendControl works.record).mono ?_
      exact fun _ v sent => achieves_maybeShutWrite sent.1
    · exact achieves_maybeShutWrite works.record

theorem achieves_offerData {packet : Packet} (works : Works Fit s t) (spare : t.budget < s.budget)
    (latest : t.self.reply.latestData = .ok packet) :
    Achieves (offerData packet) t fun _ u => Works Fit s u ∧ t.host.Spends u.host ∧
      ∃ pending, u.self = { t.self with pending } := by
  simp only [offerData, achieves_bind]
  refine (achieves_offer (.refl works.toReady)).mono ?_
  rintro taken u ⟨offered, same, -⟩
  split
  · exact (achieves_pure _).2 ⟨works.trans offered, offered.spends, t.self.pending, same⟩
  · simp only [achieves_bind, achieves_say, achieves_modifySelf, achieves_self]
    have fit : Fit { u.self with pending := true } := by
      rw [same]
      exact ⟨works.fit.sound, works.fit.equipped, fun _ => ⟨packet, latest⟩⟩
    have less := Nat.lt_of_le_of_lt offered.budget_le spare
    refine (achieves_await ((works.trans offered).call fit (Host.spends_record _ _)) less).mono ?_
    rintro _ v ⟨works, same', spends⟩
    refine ⟨works, (offered.spends.trans (Host.spends_record _ _)).trans spends, true, ?_⟩
    rw [same', same]

/-- What was sent takes up room at the device. -/
theorem roomAtDevice_sent {f : TcpFlow} {n : Nat} (fits : n ≤ f.roomAtDevice) :
    roomAtDevice { f with sequence := f.sequence + n.toUInt32 } = f.roomAtDevice - n := by
  have rest : f.confirmed + f.window.toUInt32 - (f.sequence + n.toUInt32) =
      f.confirmed + f.window.toUInt32 - f.sequence - n.toUInt32 := by grind
  simp only [roomAtDevice, rest] at fits ⊢
  generalize f.confirmed + f.window.toUInt32 - f.sequence = room at fits ⊢
  by_cases senseless : f.window.toUInt32 < room
  · rw [if_pos senseless, Nat.le_zero] at fits
    subst fits
    simp [senseless]
  · rw [if_neg senseless] at fits ⊢
    have small : n.toUInt32.toNat = n := Nat.mod_eq_of_lt (Nat.lt_of_le_of_lt fits room.toNat_lt)
    have left : (room - n.toUInt32).toNat = room.toNat - n := by
      have fits' : n.toUInt32 ≤ room := UInt32.le_iff_toNat_le.2 (by rw [small]; exact fits)
      rw [UInt32.toNat_sub_of_le _ _ fits', small]
    rw [UInt32.lt_iff_toNat_lt] at senseless
    rw [if_neg (by rw [UInt32.lt_iff_toNat_lt, left]; omega), left]

/-- Bytes that the device has room for make a packet. The read that found them has made up for the
packet's having to wait. -/
theorem achieves_deliver {bytes : Bytes} (works : Works Fit s t) (spare : t.budget < s.budget)
    (filled : t.self.reply.data.filled = t.self.reply.headers)
    (fits : bytes.length ≤ t.self.reply.maxPayload) (room : bytes.length ≤ t.self.roomAtDevice) :
    Achieves (deliver bytes) t fun _ u => Works Fit s u ∧ t.host.Spends u.host ∧
      u.self.socket = t.self.socket ∧
      u.self.roomAtDevice = t.self.roomAtDevice - bytes.length := by
  obtain ⟨started, packet, data, committed, completed, -, equipped, latest⟩ :=
    works.fit.equipped.deliver_isOk filled fits
  have narrow := narrow32_eq_of_le
    (Nat.le_trans (Nat.le_add_left _ _) (works.fit.equipped.length_le fits))
  simp only [deliver, achieves_bind, achieves_self, achieves_liftM, achieves_say,
    achieves_modifySelf]
  refine ⟨_, committed, _, completed, _, narrow, ?_⟩
  have fit : Fit { t.self with
      reply := { t.self.reply with data }, sequence := t.self.sequence + bytes.length.toUInt32 } :=
    ⟨works.fit.sound, equipped, fun _ => ⟨packet, latest⟩⟩
  refine (achieves_offerData (works.call fit (Host.spends_record _ _)) ?_ latest).mono ?_
  · exact spare
  · rintro _ u ⟨works, spends, pending, same⟩
    refine ⟨works, (Host.spends_record _ _).trans spends, by rw [same], ?_⟩
    rw [same]
    exact roomAtDevice_sent (f := t.self) room

theorem achieves_finishReading (works : Works Fit s t) :
    Achieves finishReading t fun _ u => Works Fit s u ∧ u.self.remoteClosed = true := by
  simp only [finishReading, achieves_bind, achieves_say, achieves_modifySelf]
  have fit : Fit { t.self with remoteClosed := true } := works.fit.congr rfl rfl id
  exact achieves_maybeSendFin (works.call fit (Host.spends_record _ _))

-- How much can be read yet, and how often the socket will say that there is something.
private def unfilled (s : Scene TcpFlow Outbox) : Nat :=
  if s.self.mayRead then s.self.roomAtDevice + (s.host.socket s.self.socket).arrivals.length + 1 else 0

private theorem unfilled_le (t : Scene TcpFlow Outbox) : unfilled t ≤
    t.self.roomAtDevice + (t.host.socket t.self.socket).arrivals.length + 1 := by
  unfold unfilled
  split
  · exact Nat.le_refl _
  · exact Nat.zero_le _

private theorem achieves_readRound (works : Works Fit s t) :
    Achieves (readRound ()) t (Progress (fun _ => Works Fit s) (fun _ => unfilled)
      (fun _ => Works Fit s) (unfilled t)) := by
  simp only [readRound, achieves_bind, achieves_self]
  split
  · exact (achieves_pure _).2 works
  next reads =>
  rw [Bool.not_eq_true, Bool.not_eq_false'] at reads
  have measure : unfilled t = _ := if_pos reads
  -- A flow that has stopped reading has nothing left of the measure.
  have stops {u : Scene TcpFlow Outbox} (h : u.self.mayRead = false) : unfilled u < unfilled t := by
    rw [measure, unfilled, h]
    exact Nat.succ_pos _
  split
  · simp only [achieves_bind, achieves_say, achieves_pure]
    exact works.record
  obtain ⟨data, reserved, fit, filled⟩ := works.fit.reserve_isOk reads (.ack ∪ .psh)
    (min t.self.roomAtDevice t.self.maxPayload)
  simp only [achieves_bind, achieves_prepareHeader, achieves_self, achieves_liftM,
    achieves_modifySelf, achieves_call]
  refine ⟨_, reserved, ?_⟩
  have called (size : Nat) : Works Fit s ⟨_, t.registry, _, (t.host.read t.self.socket size).2⟩ :=
    works.call fit (Host.spends_read _ _ _)
  split
  · simp only [achieves_bind]
    refine (achieves_finishReading (called _)).mono ?_
    rintro _ u ⟨works, finished⟩
    exact (achieves_pure _).2 ⟨works, stops (by simp [mayRead, finished])⟩
  · next bytes nonempty hr =>
    have size := Nat.le_min.1 (Host.length_read_le hr)
    have less := Host.unread_read_lt hr nonempty
    have spare : t.out.waiting.length + (t.host.read t.self.socket _).2.unread < s.budget :=
      Nat.lt_of_lt_of_le (Nat.add_lt_add_left less.2 _) works.budget_le
    have fits : bytes.length ≤ t.self.roomAtDevice := (Nat.le_min.1 size.1).1
    simp only [achieves_bind]
    refine (achieves_deliver (called _) spare filled size.2 fits).mono ?_
    rintro _ u ⟨works, spends, socket, room⟩
    refine (achieves_pure _).2 ⟨works, Nat.lt_of_le_of_lt (unfilled_le u) ?_⟩
    have arrivals := (((Host.spends_read _ _ _).trans spends).socket t.self.socket).arrivals_le
    have some : 0 < bytes.length := List.length_pos_iff.2 nonempty
    have room : u.self.roomAtDevice = t.self.roomAtDevice - bytes.length := room
    have socket : u.self.socket = t.self.socket := socket
    rw [measure, room, socket]
    omega
  · exact (achieves_pure _).2 (called _)
  · next hr =>
    refine (achieves_pure _).2 ⟨called _, ?_⟩
    have less := (Host.arrivals_read_lt hr (by decide)).1
    refine Nat.lt_of_le_of_lt (unfilled_le _) ?_
    rw [measure]
    exact Nat.succ_lt_succ (Nat.add_lt_add_left less _)
  · simp only [achieves_bind, achieves_say]
    refine (achieves_reset (called _).record).mono ?_
    rintro _ u ⟨works, closed⟩
    exact (achieves_pure _).2 ⟨works, stops (by simp [mayRead, closed, Phase.sendsPayload])⟩

theorem achieves_processReceive (works : Works Fit s t) :
    Achieves processReceive t fun _ u => Works Fit s u := by
  simp only [processReceive, achieves_bind, achieves_get]
  exact achieves_iterate (fun _ _ => achieves_readRound) works
    (Nat.lt_succ_of_le (unfilled_le t))

section Handling

variable {segment : Segment}

theorem achieves_handleFirst (works : Works Fit s t)
    (short : segment.payload.length ≤ maxPacketLength) :
    Achieves (handleFirst segment) t fun _ u => Works Fit s u := by
  unfold handleFirst
  split
  · simp only [achieves_bind, achieves_call, achieves_modifySelf]
    refine (achieves_setPhase ?_).mono fun _ _ set => set.1
    exact works.call (works.fit.congr rfl rfl id) (Host.spends_random _)
  · simp only [achieves_bind, achieves_say, achieves_liftM, achieves_modifySelf]
    refine ⟨_, narrow32_eq_of_le short, (achieves_reset ?_).mono fun _ _ reset => reset.1⟩
    exact works.call (works.fit.congr rfl rfl id) (Host.spends_record _ _)

theorem achieves_handleSyn (works : Works Fit s t) :
    Achieves (handleSyn segment) t fun _ u => Works Fit s u := by
  simp only [handleSyn, achieves_bind, achieves_self]
  split
  · simp only [achieves_bind, achieves_say, achieves_modifySelf]
    exact works.call (works.fit.congr rfl rfl id) (Host.spends_record _ _)
  · simp only [achieves_bind, achieves_say]
    exact (achieves_reset works.record).mono fun _ _ reset => reset.1

theorem achieves_handleAck (works : Works Fit s t) :
    Achieves (handleAck segment) t fun _ u => Works Fit s u := by
  simp only [handleAck, achieves_bind, achieves_modifySelf, achieves_self]
  have confirmed : Works Fit s { t with
      self := { t.self with confirmed := segment.acknowledgement, window := segment.window } } :=
    works.become (works.fit.congr rfl rfl id)
  have goesOn {phase : Phase} : Achieves (do setPhase phase; processReceive) { t with
      self := { t.self with confirmed := segment.acknowledgement, window := segment.window } }
      fun _ u => Works Fit s u := by
    rw [achieves_bind]
    exact (achieves_setPhase confirmed).mono fun _ _ set => achieves_processReceive set.1
  split
  · simp only [achieves_bind, achieves_say]
    exact (achieves_close confirmed.record).mono fun _ _ closed => closed.1
  · simp only [achieves_bind, achieves_say]
    exact (achieves_close confirmed.record).mono fun _ _ closed => closed.1
  · exact goesOn
  · exact goesOn
  · exact achieves_processReceive confirmed

theorem achieves_handlePayload {payload : Bytes} (works : Works Fit s t)
    (short : payload.length ≤ maxPacketLength) :
    Achieves (handlePayload payload) t fun _ u => Works Fit s u := by
  simp only [handlePayload, achieves_bind, achieves_self]
  split
  · simp only [achieves_bind, achieves_say, achieves_pure]
    exact works.record
  split
  · simp only [achieves_bind, achieves_say, achieves_pure]
    exact works.record
  obtain ⟨ring, pushed⟩ := works.fit.sound.push_isOk payload
  simp only [achieves_bind, achieves_liftM, achieves_modifySelf]
  refine ⟨_, pushed, _, narrow32_eq_of_le short, ?_⟩
  have taken : Works Fit s { t with
      self := { t.self with ring, expected := t.self.expected + payload.length.toUInt32 } } :=
    works.become ⟨works.fit.sound.push pushed, works.fit.equipped, works.fit.waiting⟩
  refine (achieves_sendControl taken).mono ?_
  rintro _ u ⟨works, -⟩
  refine (achieves_processSend works).mono ?_
  exact fun _ _ works => (achieves_pure _).2 works

theorem achieves_handleFin (works : Works Fit s t) :
    Achieves handleFin t fun _ u => Works Fit s u := by
  simp only [handleFin, achieves_bind, achieves_modifySelf, achieves_self]
  have noted : Works Fit s { t with
      self := { t.self with expected := t.self.expected + 1, deviceClosed := true } } :=
    works.become (works.fit.congr rfl rfl id)
  have finish (phase : Phase) : Achieves
      (do sendControl .ack; setPhase phase; maybeShutWrite) { t with
        self := { t.self with expected := t.self.expected + 1, deviceClosed := true } }
      fun _ u => Works Fit s u := by
    simp only [achieves_bind]
    refine (achieves_sendControl noted).mono fun _ _ sent => ?_
    exact (achieves_setPhase sent.1).mono fun _ _ set => achieves_maybeShutWrite set.1
  have answer : Achieves (do
      if t.self.remoteClosed && !t.self.pending then
        sendFin .lastAck
      else
        sendControl .ack
        setPhase .closeWait
      maybeShutWrite) { t with
        self := { t.self with expected := t.self.expected + 1, deviceClosed := true } }
      fun _ u => Works Fit s u := by
    split
    · rw [achieves_bind]
      exact (achieves_sendFin noted).mono fun _ _ sent => achieves_maybeShutWrite sent.1
    · exact finish .closeWait
  split
  · exact answer
  · exact answer
  · exact finish .closing
  · simp only [achieves_bind]
    refine (achieves_sendControl noted).mono fun _ _ sent => (achieves_say _).2 ?_
    exact (achieves_close sent.1.record).mono fun _ _ closed => closed.1
  · rw [achieves_bind]
    exact (achieves_sendControl noted).mono fun _ _ sent => achieves_maybeShutWrite sent.1

theorem achieves_handleContent (works : Works Fit s t)
    (short : segment.payload.length ≤ maxPacketLength) :
    Achieves (handleContent segment) t fun _ u => Works Fit s u := by
  have finish {taken : Bool} {u : Scene TcpFlow Outbox} (works : Works Fit s u) :
      Achieves (if taken && !u.self.isClosed && segment.flags.has .fin then handleFin
        else return ()) u fun _ v => Works Fit s v := by
    split
    · exact achieves_handleFin works
    · exact (achieves_pure _).2 works
  unfold handleContent
  split
  · simp only [achieves_bind, achieves_pure, achieves_self]
    exact finish works
  · simp only [achieves_bind, achieves_self]
    exact (achieves_handlePayload works short).mono fun _ _ works => finish works

theorem achieves_handleSegment (works : Works Fit s t)
    (short : segment.payload.length ≤ maxPacketLength) :
    Achieves (handleSegment segment) t fun _ u => Works Fit s u := by
  have finish {u : Scene TcpFlow Outbox} (works : Works Fit s u) :
      Achieves (if u.self.isClosed then return () else handleContent segment) u
        fun _ v => Works Fit s v := by
    split
    · exact (achieves_pure _).2 works
    · exact achieves_handleContent works short
  simp only [handleSegment, achieves_bind, achieves_self]
  split
  · simp only [achieves_bind, achieves_say]
    exact (achieves_close works.record).mono fun _ _ closed => closed.1
  split
  · exact (achieves_say _).2 works.record
  split
  · exact (achieves_say _).2 works.record
  split
  · rw [achieves_bind]
    refine (achieves_handleAck works).mono fun _ _ works => ?_
    simp only [achieves_bind, achieves_self]
    exact finish works
  · simp only [achieves_bind, achieves_self]
    exact finish works

theorem achieves_receive {packet : Packet} (works : Works Fit s t) (judged : packet.Judged) :
    Achieves (receive packet) t fun _ u => Works Fit s u := by
  obtain ⟨found, read, short⟩ := judged.segment_isOk
  simp only [receive, achieves_bind, achieves_liftM]
  refine ⟨found, read, ?_⟩
  split
  · exact (achieves_pure _).2 works
  next segment =>
  replace short := short segment rfl
  simp only [achieves_bind, achieves_say, achieves_self]
  split
  · exact (achieves_pure _).2 works.record
  · rw [achieves_bind]
    exact (achieves_handleFirst works.record short).mono fun _ _ => achieves_updateInterest
  · split
    · rw [achieves_bind]
      exact (achieves_handleSyn works.record).mono fun _ _ => achieves_updateInterest
    · rw [achieves_bind]
      exact (achieves_handleSegment works.record short).mono fun _ _ => achieves_updateInterest

end Handling

theorem achieves_checkConnected (works : Works Fit s t) :
    Achieves checkConnected t fun _ u => Works Fit s u := by
  have fails {kind : ErrorKind} {u : Scene TcpFlow Outbox} (works : Works Fit s u) :
      Achieves (do say (.connectFailed (.host kind)); reset) u fun _ v => Works Fit s v := by
    simp only [achieves_bind, achieves_say]
    exact (achieves_reset works.record).mono fun _ _ reset => reset.1
  have asked : Works Fit s { t with host := (t.host.takeError t.self.socket).2 } :=
    works.call works.fit (Host.spends_takeError _ _)
  have asked' : Works Fit s { t with
      host := ((t.host.takeError t.self.socket).2.peerAddress t.self.socket).2 } :=
    asked.call works.fit (Host.spends_peerAddress _ _)
  simp only [checkConnected, achieves_bind, achieves_self, achieves_call]
  split
  · exact fails asked
  · exact fails asked
  simp only [achieves_bind, achieves_call]
  split
  · simp only [achieves_bind, achieves_say]
    refine (achieves_setPhase asked'.record).mono fun _ u set => ?_
    refine (achieves_sendControl set.1).mono fun _ v sent => ?_
    exact (achieves_modifySelf _).2 (sent.1.become (sent.1.fit.congr rfl rfl id))
  · exact (achieves_say _).2 asked'.record
  · exact (achieves_say _).2 asked'.record
  · exact fails asked'

theorem achieves_onReady {readiness : Readiness} (works : Works Fit s t) :
    Achieves (onReady readiness) t fun _ u => Works Fit s u := by
  simp only [onReady, achieves_bind, achieves_self]
  split
  · exact (achieves_pure _).2 works
  · exact achieves_updateInterest works
  · split
    · rw [achieves_bind]
      exact (achieves_checkConnected works).mono fun _ _ => achieves_updateInterest
    · exact achieves_updateInterest works
  · have finish {u : Scene TcpFlow Outbox} (works : Works Fit s u) : Achieves (do
        if readiness.readable then
          processReceive
        updateInterest) u fun _ v => Works Fit s v := by
      split
      · rw [achieves_bind]
        exact (achieves_processReceive works).mono fun _ _ => achieves_updateInterest
      · exact achieves_updateInterest works
    split
    · rw [achieves_bind]
      exact (achieves_processSend works).mono fun _ _ => finish
    · exact finish works

/-- A packet that waits is taken once there is room for any packet. -/
theorem achieves_pull (works : Works Fit s t) (room : maxPacketLength ≤ t.out.ring.remaining) :
    Achieves pull t fun _ u => Works Fit s u := by
  simp only [pull, achieves_bind, achieves_self]
  split
  · exact (achieves_pure _).2 works
  next waits =>
  simp only [Bool.or_eq_true, Bool.not_eq_true', not_or, Bool.not_eq_false] at waits
  obtain ⟨packet, latest⟩ := works.fit.waiting waits.1
  have short : packet.bytes.length ≤ maxPacketLength := (Packet.judged_of_ofBytes latest).length_le
  simp only [achieves_bind, achieves_liftM]
  refine ⟨packet, latest, (achieves_offer works).mono ?_⟩
  rintro taken u ⟨works, -, fits⟩
  rw [if_pos (fits (Nat.le_trans short room))]
  simp only [achieves_bind, achieves_say, achieves_modifySelf]
  have taken : Works Fit s { u with self := { u.self with pending := false } } :=
    works.become (works.fit.congr rfl rfl (by simp))
  refine (achieves_maybeSendFin taken.record).mono ?_
  rintro _ v ⟨works, -⟩
  exact (achieves_processReceive works).mono fun _ _ => achieves_updateInterest

/-- A flow that was opened is fit, whatever it took to open it. -/
theorem fit_of_start {α σ : Type} {s t : Scene α σ} {session : Nat} {key : FlowKey} {bytes : Bytes}
    {request : Packet} {config : Config} {f : TcpFlow} (parsed : Packet.ofBytes bytes = .ok request)
    (started : start session key request config s = .ok (.ok f, t)) : f.Fit := by
  obtain ⟨socket, token, reply, ring, prepared, made, rfl⟩ := eq_of_start started
  obtain ⟨found, prepared', equipped⟩ := Reply.ofRequest_isOk parsed
  cases prepared.symm.trans prepared'
  exact ⟨StreamRing.sound_of_ofCapacity made, equipped reply rfl, nofun⟩

/-- A flow for any packet can be opened, unless the host refuses to. -/
theorem achieves_start {α σ : Type} {s : Scene α σ} {session : Nat} {key : FlowKey} {bytes : Bytes}
    {request : Packet} {config : Config} (parsed : Packet.ofBytes bytes = .ok request)
    (affordable : config.streamCapacity + 1 < bufferLimit) :
    Achieves (start session key request config) s fun _ t =>
      ∃ registry host, t = { s with registry, host } ∧ s.host.Spends host := by
  obtain ⟨found, prepared, -⟩ := Reply.ofRequest_isOk parsed
  simp only [start, achieves_bind, achieves_liftM]
  refine ⟨found, prepared, ?_⟩
  split
  · exact (achieves_pure _).2 ⟨_, _, rfl, .refl _⟩
  have connects := Host.spends_connect s.host key.destination
  simp only [achieves_bind, achieves_call]
  split
  · exact (achieves_pure _).2 ⟨_, _, rfl, connects⟩
  rw [achieves_bind]
  refine (Registration.achieves_enter _ _ _).mono ?_
  rintro (kind | registration) _ ⟨registry, host, rfl, spends⟩
  · simp only [achieves_bind, achieves_tell, achieves_pure]
    exact ⟨_, _, rfl, (connects.trans spends).trans (Host.spends_close _ _)⟩
  · obtain ⟨ring, made⟩ := StreamRing.ofCapacity_isOk affordable
    simp only [achieves_bind, achieves_note, achieves_liftM, achieves_pure]
    exact ⟨ring, made, _, _, rfl, (connects.trans spends).trans (Host.spends_record _ _)⟩

section Runs

variable {σ : Type} [Outlet σ] {stimulus : Stimulus} {f g : TcpFlow} {r r' : Registry}
  {out out' : σ} {mark : Mark} {journal : List Step}

theorem Emits.fit {flags : TcpFlags} {sent : Sent} (h : Emits flags f out sent g out')
    (hf : f.Fit) : g.Fit := by
  obtain ⟨reply, built, rfl⟩ := h.built
  have fit := hf.prepared flags
  obtain ⟨packet, control, built', -, equipped⟩ := fit.equipped.withoutPayload_isOk
  cases built.symm.trans built'
  exact ⟨fit.sound, equipped, fit.waiting⟩

theorem Reads.fit {size : Nat} (h : f.Reads size g) (hf : f.Fit) :
    g.Fit ∧ g.reply.data.filled = g.reply.headers ∧ size ≤ g.reply.maxPayload := by
  obtain ⟨reply, reserved, rfl⟩ := h.started
  obtain ⟨data, reserved', fit, filled⟩ :=
    hf.reserve_isOk h.mayRead (.ack ∪ .psh) (min f.roomAtDevice f.maxPayload)
  cases reserved.symm.trans reserved'
  exact ⟨fit, filled, Nat.min_le_right _ _⟩

theorem Ends.fit {ending : Ending} (h : Ends stimulus f out ending g out') (hf : f.Fit) :
    g.Fit := by
  cases h with
  | resetByDevice _ _ _ => exact hf
  | confirmed _ _ _ _ _ => exact hf.congr rfl rfl id
  | finished _ _ _ emits => exact emits.fit (hf.congr rfl rfl id)
  | refused _ _ => exact hf
  | disconnected _ => exact hf
  | reset resets emits =>
    refine emits.fit ?_
    cases resets with
    | noRequest _ _ _ => exact hf.congr rfl rfl id
    | readError reads _ => exact (reads.fit hf).1
    | _ => exact hf

theorem Move.fit (hf : f.Fit) (move : Move stimulus ⟨f, r, out⟩ mark ⟨g, r', out'⟩) : g.Fit := by
  cases move with
  | opened _ _ _ _ => exact hf.congr rfl rfl id
  | reopened _ _ _ => exact hf.congr rfl rfl id
  | unconnected _ _ => exact hf
  | connected _ emits => exact (emits.fit (hf.congr rfl rfl id)).congr rfl rfl id
  | acknowledged _ _ _ _ => exact hf.congr rfl rfl id
  | took _ _ _ _ _ pushed emits =>
    exact emits.fit ⟨hf.sound.push pushed, hf.equipped, hf.waiting⟩
  | ended _ _ _ emits => exact (emits.fit (hf.congr rfl rfl id)).congr rfl rfl id
  | missed reads _ => exact (reads.fit hf).1
  | delivered reads _ fits committed completed _ =>
    obtain ⟨fit, filled, size⟩ := reads.fit hf
    obtain ⟨started, packet, data, committed', completed', -, equipped, latest⟩ :=
      fit.equipped.deliver_isOk filled (Nat.le_trans fits size)
    cases committed.symm.trans committed'
    cases completed.symm.trans completed'
    exact ⟨fit.sound, equipped, fun _ => ⟨_, latest⟩⟩
  | retried _ pending _ _ => exact hf.congr rfl rfl fun _ => pending
  | exhausted reads emits =>
    exact (emits.fit ((reads.fit hf).1.congr rfl rfl id)).congr rfl rfl id
  | wrote _ _ _ => exact ⟨hf.sound.drop, hf.equipped, hf.waiting⟩
  | blocked _ _ => exact hf
  | widened _ _ _ emits => exact emits.fit hf
  | shut _ _ _ _ _ => exact hf.congr rfl rfl id
  | told _ _ => exact hf.congr rfl rfl id
  | closed _ ends _ => exact (ends.fit hf).congr rfl rfl id

/-- Every flow of a run is fit. -/
theorem Run.fit {s : Scene TcpFlow σ} (run : Run journal s) : s.self.Fit := by
  induction run with
  | start parsed _ started => exact fit_of_start parsed started
  | world _ _ _ _ ih => exact ih
  | act _ _ path ih => exact path.invariant (I := fun _ f => f.Fit) Move.fit journal ih

/-- Whatever has happened, a packet is handled without a fault. -/
theorem Run.receive_isOk {s : Scene TcpFlow Outbox} (run : Run journal s)
    (sound : s.out.ring.Sound) {bytes : Bytes} {packet : Packet}
    (parsed : Packet.ofBytes bytes = .ok packet) : ∃ t, receive packet s = .ok ((), t) := by
  obtain ⟨_, t, received, -⟩ :=
    achieves_receive (.refl ⟨run.fit, sound⟩) (Packet.judged_of_ofBytes parsed)
  exact ⟨t, received⟩

end Runs

end TcpFlow

end TunnelRelay
