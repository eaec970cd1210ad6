import TunnelRelay.Proofs.Flow.Tcp.ToDevice

/-!
# The window of the device

With every confirmation the device says how far the flow may send: its window counts from the number
that it acknowledges. Whatever the device says, and wherever the numbers wrap, data ends within the
window, and the socket is not read while nothing of the window is left.
-/

namespace TunnelRelay.TcpFlow

/-- The segment by which the device confirmed what it had received. -/
def Mark.confirmation? : Mark → Option Segment
  | acknowledged segment | closed (.confirmed segment) _ => some segment
  | _ => none

/-- The window that came with a request for a connection. -/
def Mark.requestWindow? : Mark → Option UInt16
  | opened segment _ | reopened segment => some segment.window
  | _ => none

def lastConfirmation (steps : List Step) : Option Segment :=
  (steps.filterMap fun step => step.mark.confirmation?).getLast?

def lastRequestWindow (steps : List Step) : Option UInt16 :=
  (steps.filterMap fun step => step.mark.requestWindow?).getLast?

/-- The number from which the device's window counts, and the window: those of the last confirmation,
or the flow's own first number and the window of the last request as long as there was none. -/
def granted (steps : List Step) : Option (UInt32 × UInt16) :=
  match lastConfirmation steps with
  | some segment => some (segment.acknowledgement, segment.window)
  | none =>
    match initialNumber steps, lastRequestWindow steps with
    | some initial, some window => some (initial, window)
    | _, _ => none

/-- Room is what remains of the window behind the next number, which is some way on from any other:
numbers wrap. -/
theorem distance_add_roomAtDevice {f : TcpFlow} (room : f.roomAtDevice ≠ 0) :
    (f.sequence - f.confirmed).toNat + f.roomAtDevice = f.window.toNat := by
  have distance : f.sequence - f.confirmed =
      f.window.toUInt32 - (f.confirmed + f.window.toUInt32 - f.sequence) := by grind
  simp only [roomAtDevice, distance] at room ⊢
  generalize f.confirmed + f.window.toUInt32 - f.sequence = left at room ⊢
  split at room
  · exact absurd rfl room
  · next within =>
    rw [UInt32.not_lt] at within
    rw [if_neg (UInt32.not_lt.2 within), UInt32.toNat_sub_of_le _ _ within,
      Nat.sub_add_cancel (UInt32.le_iff_toNat_le.1 within)]
    exact UInt16.toNat_toUInt32 _

variable {σ : Type} [Outlet σ] {stimulus : Stimulus} {f g : TcpFlow} {r r' : Registry}
  {out out' : σ} {mark : Mark} {journal pre : List Step} {step : Step} {s : Scene TcpFlow σ}
  {config : Config}

private theorem lastConfirmation_concat (step : Step) :
    lastConfirmation (journal ++ [step]) =
      step.mark.confirmation?.or (lastConfirmation journal) := by
  unfold lastConfirmation
  cases h : step.mark.confirmation? <;> simp [h]

private theorem lastRequestWindow_concat (step : Step) :
    lastRequestWindow (journal ++ [step]) =
      step.mark.requestWindow?.or (lastRequestWindow journal) := by
  unfold lastRequestWindow
  cases h : step.mark.requestWindow? <;> simp [h]

private theorem granted_concat_of_confirmation {step : Step} {segment : Segment}
    (h : step.mark.confirmation? = some segment) :
    granted (journal ++ [step]) = some (segment.acknowledgement, segment.window) := by
  rw [granted, lastConfirmation_concat, h]
  rfl

private structure Heeds (journal : List Step) (f : TcpFlow) : Prop where
  unchosen : f.phase = .initial → initialNumber journal = none
  unconfirmed : f.phase.isConnecting = true → lastConfirmation journal = none
  granted_eq : f.phase ≠ .initial → f.phase ≠ .closed →
    granted journal = some (f.confirmed, f.window)

private theorem Heeds.aside (h : Heeds journal f) (isOpen : f.phase ≠ .closed)
    (initial_eq : mark.initial? = none) (confirmation_eq : mark.confirmation? = none)
    (request_eq : mark.requestWindow? = none)
    (phase : g.phase.isConnecting = true → g.phase = f.phase)
    (kept : g.phase ≠ .closed →
      g.confirmed = f.confirmed ∧ g.window = f.window ∧ (f.phase = .initial → g.phase = .initial)) :
    Heeds (journal ++ [⟨f, mark, g⟩]) g := by
  have initial' : initialNumber (journal ++ [⟨f, mark, g⟩]) = initialNumber journal := by
    rw [initialNumber_concat, initial_eq, Option.or_none]
  have confirmation' : lastConfirmation (journal ++ [⟨f, mark, g⟩]) = lastConfirmation journal := by
    rw [lastConfirmation_concat, confirmation_eq, Option.none_or]
  have request' : lastRequestWindow (journal ++ [⟨f, mark, g⟩]) = lastRequestWindow journal := by
    rw [lastRequestWindow_concat, request_eq, Option.none_or]
  refine ⟨?_, ?_, ?_⟩
  · intro initial
    rw [initial']
    exact h.unchosen ((phase (by rw [initial]; rfl)).symm.trans initial)
  · intro connecting
    rw [confirmation']
    exact h.unconfirmed (phase connecting ▸ connecting)
  · intro notInitial isOpen'
    obtain ⟨confirmed, window, early⟩ := kept isOpen'
    rw [granted, initial', confirmation', request', confirmed, window]
    exact h.granted_eq (fun initial => notInitial (early initial)) isOpen

private theorem granted_concat_of_request {step : Step} {number : UInt32} {window : UInt16}
    (confirmation : step.mark.confirmation? = none) (request : step.mark.requestWindow? = some window)
    (unconfirmed : lastConfirmation journal = none)
    (chosen : initialNumber (journal ++ [step]) = some number) :
    granted (journal ++ [step]) = some (number, window) := by
  rw [granted, lastConfirmation_concat, confirmation, unconfirmed, lastRequestWindow_concat, request,
    chosen]
  rfl

private theorem Heeds.opened {segment : Segment} {initial : UInt32} (h : Heeds journal f)
    (phase : f.phase = .initial) (sent : g.phase = .synSent) (confirmed : g.confirmed = initial)
    (window : g.window = segment.window) :
    Heeds (journal ++ [⟨f, .opened segment initial, g⟩]) g := by
  have unconfirmed := h.unconfirmed (by rw [phase]; rfl)
  refine ⟨fun unasked => ?_, fun _ => ?_, fun _ _ => ?_⟩
  · cases sent.symm.trans unasked
  · rw [lastConfirmation_concat, unconfirmed]
    rfl
  · rw [confirmed, window]
    refine granted_concat_of_request rfl rfl unconfirmed ?_
    rw [initialNumber_concat, h.unchosen phase]
    rfl

private theorem Heeds.reopened {segment : Segment} (h : Heeds journal f)
    (phase : f.phase = .synSent) (sent : g.phase = .synSent) (confirmed : g.confirmed = f.confirmed)
    (window : g.window = segment.window) :
    Heeds (journal ++ [⟨f, .reopened segment, g⟩]) g := by
  have unconfirmed := h.unconfirmed (by rw [phase]; rfl)
  -- What was granted before counts from the number that the flow chose.
  have chosen : initialNumber journal = some f.confirmed := by
    have before := h.granted_eq (by simp [phase]) (by simp [phase])
    simp only [granted, unconfirmed] at before
    split at before
    · next initial _ found _ => rw [found, (Prod.mk.inj (Option.some.inj before)).1]
    · cases before
  refine ⟨fun unasked => ?_, fun _ => ?_, fun _ _ => ?_⟩
  · cases sent.symm.trans unasked
  · rw [lastConfirmation_concat, unconfirmed]
    rfl
  · rw [confirmed, window]
    refine granted_concat_of_request rfl rfl unconfirmed ?_
    rw [initialNumber_concat, chosen]
    rfl

private theorem Heeds.acknowledged {segment : Segment} (connected : g.phase.isConnecting = false)
    (confirmed : g.confirmed = segment.acknowledgement) (window : g.window = segment.window) :
    Heeds (journal ++ [⟨f, .acknowledged segment, g⟩]) g := by
  refine ⟨fun unasked => ?_, fun connecting => ?_, fun _ _ => ?_⟩
  · exact absurd unasked (not_initial_of_connected connected).1
  · cases connected.symm.trans connecting
  · rw [confirmed, window]
    exact granted_concat_of_confirmation rfl

private theorem Emits.window_eq {flags : TcpFlags} {sent : Sent}
    (h : Emits flags f out sent g out') : g.confirmed = f.confirmed ∧ g.window = f.window := by
  obtain ⟨reply, -, rfl⟩ := h.built
  exact ⟨rfl, rfl⟩

private theorem Reads.window_eq {size : Nat} (h : f.Reads size g) :
    g.confirmed = f.confirmed ∧ g.window = f.window := by
  obtain ⟨reply, -, rfl⟩ := h.started
  exact ⟨rfl, rfl⟩

private theorem Move.heeds (h : Heeds journal f)
    (move : Move stimulus ⟨f, r, out⟩ mark ⟨g, r', out'⟩) :
    Heeds (journal ++ [⟨f, mark, g⟩]) g := by
  have isOpen := move.isOpen
  have stays := move.stays_connected
  have connected (hc : f.phase.isConnecting = false)
      (same : g.confirmed = f.confirmed ∧ g.window = f.window)
      (initial_eq : mark.initial? = none) (confirmation_eq : mark.confirmation? = none)
      (request_eq : mark.requestWindow? = none) : Heeds (journal ++ [⟨f, mark, g⟩]) g := by
    refine h.aside isOpen initial_eq confirmation_eq request_eq ?_ ?_
    · intro connecting
      cases (stays hc).symm.trans connecting
    · exact fun _ => ⟨same.1, same.2, fun initial =>
        absurd initial (not_initial_of_connected hc).1⟩
  cases move with
  | opened _ phase _ _ => exact h.opened phase rfl rfl rfl
  | reopened _ phase _ => exact h.reopened phase phase rfl rfl
  | unconnected phase _ => exact h.aside isOpen rfl rfl rfl (fun _ => rfl) fun _ => ⟨rfl, rfl, id⟩
  | connected phase emits =>
    obtain ⟨confirmed, window⟩ := emits.window_eq
    have received := emits.same.phase_eq
    refine h.aside isOpen rfl rfl rfl ?_ fun _ => ⟨confirmed, window, ?_⟩
    · intro connecting
      cases connecting.symm.trans (congrArg Phase.isConnecting received)
    · intro initial
      cases phase.symm.trans initial
  | acknowledged _ inOrder _ _ => exact .acknowledged (stays inOrder.connected) rfl rfl
  | took _ inOrder _ _ _ _ emits =>
    exact connected inOrder.connected emits.window_eq rfl rfl rfl
  | ended _ atEnd _ emits =>
    exact connected atEnd.connected emits.window_eq rfl rfl rfl
  | missed reads _ =>
    exact connected reads.connected reads.window_eq rfl rfl rfl
  | delivered reads _ _ _ _ _ =>
    exact connected reads.connected reads.window_eq rfl rfl rfl
  | retried _ _ _ _ => exact h.aside isOpen rfl rfl rfl (fun _ => rfl) fun _ => ⟨rfl, rfl, id⟩
  | exhausted reads emits =>
    obtain ⟨confirmed, window⟩ := reads.window_eq
    obtain ⟨confirmed', window'⟩ := emits.window_eq
    exact connected reads.connected ⟨confirmed'.trans confirmed, window'.trans window⟩ rfl rfl rfl
  | wrote writes _ _ => exact connected writes.connected ⟨rfl, rfl⟩ rfl rfl rfl
  | blocked writes _ => exact connected writes.connected ⟨rfl, rfl⟩ rfl rfl rfl
  | widened hc _ _ emits => exact connected hc emits.window_eq rfl rfl rfl
  | shut _ _ _ _ _ => exact h.aside isOpen rfl rfl rfl (fun _ => rfl) fun _ => ⟨rfl, rfl, id⟩
  | told _ _ => exact h.aside isOpen rfl rfl rfl (fun _ => rfl) fun _ => ⟨rfl, rfl, id⟩
  | closed _ _ _ =>
    refine ⟨fun unasked => ?_, fun connecting => ?_, fun _ isOpen' => absurd rfl isOpen'⟩
    · cases unasked
    · cases connecting

private theorem Fresh.heeds (hf : Fresh f) : Heeds [] f :=
  ⟨fun _ => rfl, fun _ => rfl, fun asked => absurd hf.phase_eq asked⟩

private theorem Emits.maxPayload_eq {flags : TcpFlags} {sent : Sent}
    (h : Emits flags f out sent g out') : g.maxPayload = f.maxPayload := by
  obtain ⟨reply, -, rfl⟩ := h.built
  rfl

private theorem Reads.maxPayload_eq {size : Nat} (h : f.Reads size g) :
    g.maxPayload = f.maxPayload := by
  obtain ⟨reply, -, rfl⟩ := h.started
  rfl

private theorem Ends.maxPayload_eq {ending : Ending} (h : Ends stimulus f out ending g out') :
    g.maxPayload = f.maxPayload := by
  cases h with
  | resetByDevice _ _ _ => rfl
  | confirmed _ _ _ _ _ => rfl
  | finished _ _ _ emits => exact emits.maxPayload_eq
  | refused _ _ => rfl
  | disconnected _ => rfl
  | reset resets emits =>
    refine emits.maxPayload_eq.trans ?_
    cases resets with
    | readError reads _ => exact reads.maxPayload_eq
    | _ => rfl

private theorem Move.maxPayload_eq (move : Move stimulus ⟨f, r, out⟩ mark ⟨g, r', out'⟩) :
    g.maxPayload = f.maxPayload := by
  cases move with
  | connected _ emits => exact emits.maxPayload_eq
  | took _ _ _ _ _ _ emits => exact emits.maxPayload_eq
  | ended _ _ _ emits => exact emits.maxPayload_eq
  | missed reads _ => exact reads.maxPayload_eq
  | delivered reads _ _ _ _ _ => exact reads.maxPayload_eq
  | exhausted reads emits => exact emits.maxPayload_eq.trans reads.maxPayload_eq
  | widened _ _ _ emits => exact emits.maxPayload_eq
  | closed _ ends _ => exact ends.maxPayload_eq
  | _ => rfl

/-- The configured length holds for every packet of a run. -/
theorem RunWith.maxPayload_eq (run : RunWith config journal s) :
    ∀ step ∈ journal, step.before.maxPayload = config.maxTcpPayload := by
  suffices kept : s.self.maxPayload = config.maxTcpPayload ∧
      ∀ step ∈ journal, step.before.maxPayload = config.maxTcpPayload from kept.2
  induction run with
  | start _ _ started =>
    obtain ⟨_, _, _, _, -, -, rfl⟩ := eq_of_start started
    exact ⟨rfl, fun _ h => absurd h List.not_mem_nil⟩
  | world _ _ _ _ ih => exact ih
  | act _ _ path ih =>
    refine path.invariant (I := fun journal f => f.maxPayload = config.maxTcpPayload ∧
      ∀ step ∈ journal, step.before.maxPayload = config.maxTcpPayload) ?_ _ ih
    rintro journal f g r r' out out' mark ⟨hf, earlier⟩ move
    refine ⟨move.maxPayload_eq.trans hf, fun step hs => ?_⟩
    rcases List.mem_append.1 hs with hs | hs
    · exact earlier step hs
    · obtain rfl := List.mem_singleton.1 hs
      exact hf

/-- A read fetches no more than the device has room for and a packet may carry. -/
theorem Reads.size_le {size : Nat} (h : f.Reads size g) :
    size ≤ f.roomAtDevice ∧ size ≤ f.maxPayload := by
  obtain ⟨reply, reserved, -⟩ := h.started
  obtain ⟨rfl, -⟩ := Reply.reserve_inv reserved
  exact Nat.le_min.1 (Nat.min_le_left _ _)

private theorem Heeds.reads {size : Nat} (h : Heeds journal f) (reads : f.Reads size g) :
    ∃ number window, granted journal = some (number, window) ∧
      (f.sequence - number).toNat < window.toNat ∧
      (f.sequence - number).toNat + size ≤ window.toNat := by
  have asked := (not_initial_of_connected reads.connected).1
  have distance := distance_add_roomAtDevice reads.room
  have room := reads.room
  have size := reads.size_le.1
  exact ⟨_, _, h.granted_eq asked reads.isOpen, by omega, by omega⟩

/-- In every run data packets stay within the window that the device granted last, counted from the
number that it acknowledged then. Other packets carry nothing, and a socket is read only while some
of the window is left, and for no more than that. -/
theorem RunWith.within_device_window (run : RunWith config journal s) :
    Continues journal s ∧ ∀ pre step, pre ++ [step] <+: journal →
      (∀ size payload sent, step.mark = .delivered size payload sent → ∃ segment number window,
        Segment.ofPacket sent.packet = .ok (some segment) ∧ segment.payload = payload ∧
          granted pre = some (number, window) ∧
          1 ≤ payload.length ∧ payload.length ≤ config.maxTcpPayload ∧
          (segment.sequence - number).toNat + payload.length ≤ window.toNat) ∧
      (∀ sent segment, step.mark.built? = some sent →
        Segment.ofPacket sent.packet = .ok (some segment) → segment.payload ≠ [] →
        ∃ size, step.mark = .delivered size segment.payload sent) ∧
      ∀ socket size result, .read socket size result ∈ step.mark.calls step.before →
        ∃ number window, granted pre = some (number, window) ∧
          (step.before.sequence - number).toNat < window.toNat ∧
          (step.before.sequence - number).toNat + size ≤ window.toNat := by
  refine ⟨run.run.continues, ?_⟩
  rintro pre ⟨f, mark, g⟩ h
  obtain ⟨downlink, -, -⟩ :=
    run.run.invariant_step (I := Downlink) Fresh.downlink Move.downlink h
  obtain ⟨before, -, stimulus, r, r', out, out', move⟩ :=
    run.run.invariant_step (I := Heeds) Fresh.heeds Move.heeds h
  have healthy : Healthy f := downlink.healthy
  refine ⟨?_, ?_, ?_⟩
  · rintro size payload sent ⟨⟩
    cases move with
    | delivered reads nonempty fits committed completed _ =>
      obtain ⟨number, window, found, -, within⟩ := before.reads reads
      have longest := run.maxPayload_eq _ (h.subset (List.mem_append_right _ List.mem_cons_self))
      refine ⟨_, number, window, (reads.segment_eq healthy committed completed).1, rfl, found,
        List.length_pos_iff.2 nonempty, ?_, ?_⟩
      · exact Nat.le_trans fits (longest ▸ reads.size_le.2)
      · exact Nat.le_trans (Nat.add_le_add_left fits _) within
  · intro sent segment built wording nonempty
    obtain ⟨segment', wording', -, -, empty | delivered⟩ := move.built_eq healthy built
    · obtain rfl := Option.some.inj (Except.ok.inj (wording'.symm.trans wording))
      exact absurd empty nonempty
    · obtain rfl := Option.some.inj (Except.ok.inj (wording'.symm.trans wording))
      exact delivered
  · intro socket size result called
    obtain ⟨size', _, _, same, reads⟩ := move.reads called rfl
    cases same
    exact before.reads reads

/-- A greeting is cut into packets of two bytes. -/
theorem within_device_window_greeting : ∃ journal, ∃ s : Scene TcpFlow Credit,
    RunWith { maxTcpPayload := 2, streamCapacity := 16 } journal s ∧
      fetched journal = [104, 101, 108, 108, 111] ∧
      ∀ pre step, pre ++ [step] <+: journal → ∀ size payload sent,
        step.mark = .delivered size payload sent → payload.length ≤ 2 := by
  obtain ⟨journal, s, run, result⟩ := exists_runWith_of_enacts
    (p := fun events _ => events.flatMap Event.fetched == [104, 101, 108, 108, 111])
    (show enacts (devicePacket .syn 0x110 0 []) { maxTcpPayload := 2, streamCapacity := 16 }
      { sockets := [(0, { arrivals := [.data [104, 101, 108, 108, 111]] })] }
      [(⟨none⟩, .ofDevice .syn 0x110 0 []),
        (⟨none⟩, .ready { writable := true }),
        (⟨none⟩, .ofDevice .ack 0x111 0x1001 [])] _ = true by
      decide +kernel)
  refine ⟨journal, s, run, beq_iff_eq.1 result, fun pre step h size payload sent delivered => ?_⟩
  obtain ⟨_, _, _, -, -, -, -, short, -⟩ :=
    (run.within_device_window.2 pre step h).1 size payload sent delivered
  exact short

end TunnelRelay.TcpFlow
