import TunnelRelay.Proofs.Budget
import TunnelRelay.Proofs.Composing
import TunnelRelay.Proofs.Flow.Starting
import TunnelRelay.Proofs.Flow.Udp.Handling
import TunnelRelay.Proofs.Ring.Datagram

/-!
# UDP flows stop at no fault

Whatever a flow that is fit reacts to, it does so without a fault, within the budget of its session,
and is fit afterwards. Its loops end because every round sends a datagram or uses up what the socket
still has to say.
-/

namespace TunnelRelay

open Act

namespace UdpFlow

section Any

variable {σ : Type} {s : Scene UdpFlow σ} {Q : Unit → Scene UdpFlow σ → Prop}

@[simp]
theorem achieves_say (notice : FlowNotice) :
    Achieves (say notice) s Q ↔
      Q () { s with host := s.host.record (.notice (.flow s.self.key notice)) } := by
  simp [say]

@[simp]
theorem achieves_touch :
    Achieves touch s Q ↔ Q () { s with self := { s.self with idleSince := s.host.clock } } := by
  simp [touch]

end Any

structure Fit (f : UdpFlow) : Prop where
  sound : f.ring.Sound
  equipped : f.reply.Equipped
  waiting : f.pending = true → ∃ packet, f.reply.latestData = .ok packet

theorem Fit.congr {f g : UdpFlow} (h : f.Fit) (ring : g.ring = f.ring) (reply : g.reply = f.reply)
    (pending : g.pending = true → f.pending = true) : g.Fit :=
  ⟨ring ▸ h.sound, reply ▸ h.equipped, fun waits => reply ▸ h.waiting (pending waits)⟩

variable {s t : Scene UdpFlow Outbox}

theorem achieves_disconnect (works : Works Fit s t) :
    Achieves disconnect t fun _ u => Works Fit s u ∧ u.self.closed = true := by
  simp only [disconnect, achieves_bind, achieves_self]
  split
  · next closed => exact (achieves_pure _).2 ⟨works, closed⟩
  · simp only [achieves_bind, achieves_say, achieves_modifySelf]
    refine (Registration.achieves_cancel _ _).mono ?_
    rintro registration _ ⟨registry, host, rfl, spends⟩
    refine ⟨works.call (works.fit.congr rfl rfl id) ?_, rfl⟩
    exact (Host.spends_record _ _).trans spends

theorem achieves_updateInterest (works : Works Fit s t) :
    Achieves updateInterest t fun _ u => Works Fit s u := by
  simp only [updateInterest, achieves_bind, achieves_self]
  split
  · exact (achieves_pure _).2 works
  · rw [achieves_bind]
    refine (Registration.achieves_update _ _ _).mono ?_
    rintro (kind | registration) _ ⟨host, rfl, spends⟩
    · simp only [achieves_bind, achieves_say]
      refine (achieves_disconnect (works.call works.fit spends).record).mono ?_
      exact fun _ _ closed => closed.1
    · exact (achieves_modifySelf _).2 (works.call (works.fit.congr rfl rfl id) spends)

-- What is left to send, and how often the socket will say whether it takes it.
private def unsent (s : Scene UdpFlow Outbox) : Nat :=
  s.self.ring.count + (s.host.socket s.self.socket).transfers.length

private theorem achieves_sendRound (works : Works Fit s t) :
    Achieves (sendRound ()) t (Progress (fun _ => Works Fit s) (fun _ => unsent)
      (fun _ => Works Fit s) (unsent t)) := by
  have sound := works.fit.sound
  obtain ⟨found, front, empty⟩ := sound.front_isOk
  simp only [sendRound, achieves_bind, achieves_self, achieves_liftM]
  refine ⟨found, front, ?_⟩
  split
  · exact (achieves_pure _).2 works
  next datagram =>
  have some : t.self.ring.count ≠ 0 := by
    simpa [DatagramRing.isEmpty] using empty
  have called : Works Fit s { t with host := (Host.send t.self.socket datagram t.host).2 } :=
    works.call works.fit (Host.spends_send _ _ _)
  have transfers := ((Host.spends_send t.host t.self.socket datagram).socket t.self.socket).transfers_le
  simp only [achieves_bind, achieves_call]
  split
  · obtain ⟨ring, popped, sound', count⟩ := sound.pop_isOk
    simp only [achieves_bind, achieves_liftM, achieves_modifySelf, achieves_touch, achieves_pure]
    refine ⟨ring, popped, called.become ⟨sound', works.fit.equipped, works.fit.waiting⟩, ?_⟩
    simp only [unsent, count]
    omega
  · exact (achieves_pure _).2 called
  · next hr =>
    refine (achieves_pure _).2 ⟨called, ?_⟩
    exact Nat.add_lt_add_left (Host.transfers_send_lt hr (by decide)) _
  · simp only [achieves_bind, achieves_say]
    refine (achieves_disconnect called.record).mono ?_
    exact fun _ u closed => (achieves_pure _).2 closed.1

theorem achieves_processSend (works : Works Fit s t) :
    Achieves processSend t fun _ u => Works Fit s u := by
  simp only [processSend, achieves_bind, achieves_get]
  exact achieves_iterate (fun _ _ => achieves_sendRound) works (Nat.lt_succ_self _)

theorem achieves_receive {packet : Packet} (works : Works Fit s t) (judged : packet.Judged) :
    Achieves (receive packet) t fun _ u => Works Fit s u := by
  simp only [receive, achieves_bind, achieves_self]
  split
  · exact (achieves_pure _).2 works
  obtain ⟨found, read, -⟩ := judged.payload_isOk
  simp only [achieves_bind, achieves_liftM]
  refine ⟨found, read, ?_⟩
  split
  · exact (achieves_pure _).2 works
  next payload =>
  obtain ⟨stored, ring, pushed, sound⟩ := works.fit.sound.push_isOk payload
  simp only [achieves_bind, achieves_touch, achieves_self, achieves_liftM, achieves_modifySelf]
  refine ⟨_, pushed, ?_⟩
  have kept : Works Fit s { t with
      self := { t.self with idleSince := t.host.clock, ring } } :=
    works.become ⟨sound, works.fit.equipped, works.fit.waiting⟩
  split
  · rw [achieves_bind]
    exact (achieves_processSend kept).mono fun _ _ => achieves_updateInterest
  · exact (achieves_say _).2 kept.record

/-- A datagram that a packet has room for makes one. The call that found it has made up for the
packet's having to wait. -/
theorem achieves_deliver {datagram : Bytes} (works : Works Fit s t) (spare : t.budget < s.budget)
    (filled : t.self.reply.data.filled = t.self.reply.headers)
    (fits : datagram.length ≤ t.self.reply.maxPayload) :
    Achieves (deliver datagram) t fun _ u => Works Fit s u ∧ t.host.Spends u.host ∧
      u.self.socket = t.self.socket := by
  obtain ⟨started, packet, data, committed, completed, -, equipped, latest⟩ :=
    works.fit.equipped.deliver_isOk filled fits
  have fit : Fit { t.self with
      idleSince := t.host.clock, reply := { t.self.reply with data } } :=
    ⟨works.fit.sound, equipped, fun _ => ⟨packet, latest⟩⟩
  simp only [deliver, achieves_bind, achieves_touch, achieves_self, achieves_liftM, achieves_say,
    achieves_modifySelf]
  refine ⟨_, committed, _, completed, ?_⟩
  have spends := t.host.spends_record
    (.notice (.flow t.self.key (.datagramTowardsDevice datagram.length)))
  have made : Works Fit s ⟨_, t.registry, _, _⟩ := works.call fit spends
  refine (achieves_offer (.refl made.toReady)).mono ?_
  rintro taken u ⟨offered, same, -⟩
  have socket : u.self.socket = t.self.socket := by rw [same]
  split
  · exact (achieves_pure _).2 ⟨made.trans offered, spends.trans offered.spends, socket⟩
  · simp only [achieves_bind, achieves_say, achieves_modifySelf, achieves_self]
    have fit' : Fit { u.self with pending := true } := by
      rw [same]
      exact ⟨fit.sound, fit.equipped, fun _ => ⟨packet, latest⟩⟩
    have less : u.budget < s.budget := Nat.lt_of_le_of_lt offered.budget_le spare
    refine (achieves_await ((made.trans offered).call fit' (Host.spends_record _ _)) less).mono ?_
    rintro _ v ⟨works, same', asked⟩
    have spends' := offered.spends.trans ((Host.spends_record _ _).trans asked)
    exact ⟨works, spends.trans spends', same' ▸ socket⟩

-- How often the socket will say that there is a datagram.
private def unreceived (s : Scene UdpFlow Outbox) : Nat :=
  if s.self.closed then 0 else (s.host.socket s.self.socket).arrivals.length

private theorem unreceived_le (s : Scene UdpFlow Outbox) :
    unreceived s ≤ (s.host.socket s.self.socket).arrivals.length := by
  unfold unreceived
  split
  · exact Nat.zero_le _
  · exact Nat.le_refl _

private theorem achieves_receiveRound (works : Works Fit s t) :
    Achieves (receiveRound ()) t (Progress (fun _ => Works Fit s) (fun _ => unreceived)
      (fun _ => Works Fit s) (unreceived t)) := by
  simp only [receiveRound, achieves_bind, achieves_self]
  split
  · exact (achieves_pure _).2 works
  next reads =>
  simp only [Bool.or_eq_true, not_or, Bool.not_eq_true] at reads
  have measure : unreceived t = (t.host.socket t.self.socket).arrivals.length := by
    simp [unreceived, reads.2]
  obtain ⟨data, reserved, equipped, filled⟩ := works.fit.equipped.reserve_isOk t.self.reply.maxPayload
  have fit : Fit { t.self with reply := { t.self.reply with data } } :=
    ⟨works.fit.sound, equipped, fun waits => absurd waits (by simp [reads.1])⟩
  simp only [achieves_bind, achieves_liftM, achieves_modifySelf, achieves_call]
  refine ⟨_, reserved, ?_⟩
  have called (size : Nat) : Works Fit s { t with
      self := { t.self with reply := { t.self.reply with data } }
      host := (t.host.receive t.self.socket size).2 } := works.call fit (Host.spends_receive _ _ _)
  split
  · next datagram hr =>
    have less := Host.arrivals_receive_lt (by rw [hr]; simp)
    have spare : t.out.waiting.length + (t.host.receive t.self.socket _).2.unread < s.budget :=
      Nat.lt_of_lt_of_le (Nat.add_lt_add_left less.2 _) works.budget_le
    have fits := Nat.le_trans (Host.length_receive_le hr) (Nat.min_le_right _ _)
    rw [achieves_bind]
    refine (achieves_deliver (called _) spare filled fits).mono ?_
    rintro _ u ⟨works, spends, socket⟩
    refine (achieves_pure _).2 ⟨works, Nat.lt_of_le_of_lt (unreceived_le u) ?_⟩
    rw [measure, socket]
    exact Nat.lt_of_le_of_lt (spends.socket t.self.socket).arrivals_le less.1
  · exact (achieves_pure _).2 (called _)
  · next hr =>
    have less := Host.arrivals_receive_lt (by rw [hr]; simp)
    exact (achieves_pure _).2 ⟨called _, Nat.lt_of_le_of_lt (unreceived_le _) (measure ▸ less.1)⟩
  · next kind waits _ hr =>
    have less := Host.arrivals_receive_lt (by rw [hr]; simpa using waits)
    simp only [achieves_bind, achieves_say]
    refine (achieves_disconnect (called _).record).mono ?_
    rintro _ u ⟨works, closed⟩
    refine (achieves_pure _).2 ⟨works, ?_⟩
    change unreceived u < unreceived t
    rw [measure, unreceived, closed]
    exact Nat.lt_of_le_of_lt (Nat.zero_le _) less.1

theorem achieves_processReceive (works : Works Fit s t) :
    Achieves processReceive t fun _ u => Works Fit s u := by
  simp only [processReceive, achieves_bind, achieves_get]
  exact achieves_iterate (fun _ _ => achieves_receiveRound) works (Nat.lt_succ_of_le (unreceived_le t))

theorem achieves_onReady {readiness : Readiness} (works : Works Fit s t) :
    Achieves (onReady readiness) t fun _ u => Works Fit s u := by
  have finish {u : Scene UdpFlow Outbox} (works : Works Fit s u) : Achieves (do
      if readiness.readable then
        processReceive
      updateInterest) u fun _ v => Works Fit s v := by
    split
    · rw [achieves_bind]
      exact (achieves_processReceive works).mono fun _ _ => achieves_updateInterest
    · exact achieves_updateInterest works
  simp only [onReady, achieves_bind, achieves_self]
  split
  · exact (achieves_pure _).2 works
  split
  · rw [achieves_bind]
    exact (achieves_processSend works).mono fun _ _ => finish
  · exact finish works

/-- A packet that waits is taken once there is room for any packet. -/
theorem achieves_pull (works : Works Fit s t) (room : maxPacketLength ≤ t.out.ring.remaining) :
    Achieves pull t fun _ u => Works Fit s u := by
  simp only [pull, achieves_bind, achieves_self]
  split
  · exact (achieves_pure _).2 works
  next waits =>
  simp only [Bool.or_eq_true, Bool.not_eq_true', not_or, Bool.not_eq_false] at waits
  obtain ⟨packet, latest⟩ := works.fit.waiting waits.1
  have short : packet.bytes.length ≤ maxPacketLength := (Packet.judged_of_ofBytes latest).length_le
  simp only [achieves_bind, achieves_liftM]
  refine ⟨packet, latest, (achieves_offer works).mono ?_⟩
  rintro taken u ⟨works, -, fits⟩
  rw [if_pos (fits (Nat.le_trans short room))]
  simp only [achieves_bind, achieves_modifySelf]
  have taken : Works Fit s { u with self := { u.self with pending := false } } :=
    works.become (works.fit.congr rfl rfl (by simp))
  exact (achieves_processReceive taken).mono fun _ _ => achieves_updateInterest

/-- A flow that was opened is fit, whatever it took to open it. -/
theorem fit_of_start {α σ : Type} {s t : Scene α σ} {session : Nat} {key : FlowKey} {bytes : Bytes}
    {request : Packet} {config : Config} {f : UdpFlow} (parsed : Packet.ofBytes bytes = .ok request)
    (started : start session key request config s = .ok (.ok f, t)) : f.Fit := by
  obtain ⟨socket, token, reply, ring, prepared, made, rfl⟩ := eq_of_start started
  obtain ⟨found, prepared', equipped⟩ := Reply.ofRequest_isOk parsed
  cases prepared.symm.trans prepared'
  exact ⟨DatagramRing.sound_of_ofCapacity made, equipped reply rfl, by simp⟩

/-- A flow for any packet can be opened, unless the host refuses to. -/
theorem achieves_start {α σ : Type} {s : Scene α σ} {session : Nat} {key : FlowKey} {bytes : Bytes}
    {request : Packet} {config : Config} (parsed : Packet.ofBytes bytes = .ok request)
    (affordable : config.datagramCapacity + 1 + recordHeader + maxDatagramLength < bufferLimit) :
    Achieves (start session key request config) s fun _ t =>
      ∃ registry host, t = { s with registry, host } ∧ s.host.Spends host := by
  obtain ⟨found, prepared, -⟩ := Reply.ofRequest_isOk parsed
  simp only [start, achieves_bind, achieves_liftM]
  refine ⟨found, prepared, ?_⟩
  split
  · exact (achieves_pure _).2 ⟨_, _, rfl, .refl _⟩
  have opens := Host.spends_openDatagram s.host
  simp only [achieves_bind, achieves_call]
  split
  · exact (achieves_pure _).2 ⟨_, _, rfl, opens⟩
  next socket _ =>
  have connects := opens.trans (Host.spends_connectDatagram _ socket key.destination)
  simp only [achieves_bind, achieves_call]
  split
  · simp only [achieves_bind, achieves_tell, achieves_pure]
    exact ⟨_, _, rfl, connects.trans (Host.spends_close _ _)⟩
  rw [achieves_bind]
  refine (Registration.achieves_enter _ _ _).mono ?_
  rintro (kind | registration) _ ⟨registry, host, rfl, spends⟩
  · simp only [achieves_bind, achieves_tell, achieves_pure]
    exact ⟨_, _, rfl, (connects.trans spends).trans (Host.spends_close _ _)⟩
  · obtain ⟨ring, made, -⟩ := DatagramRing.ofCapacity_isOk affordable
    simp only [achieves_bind, achieves_note, achieves_liftM, achieves_now, achieves_pure]
    exact ⟨ring, made, _, _, rfl, (connects.trans spends).trans (Host.spends_record _ _)⟩

end UdpFlow

end TunnelRelay
