import TunnelRelay.Proofs.Flow.Udp.Run
import TunnelRelay.Proofs.Ring.Queue

/-!
# Datagrams in both directions

Every datagram is relayed as it is. What the socket took, followed by what waits in the ring, are the
payloads that were accepted from the device; what the socket delivered are the payloads that the
device was sent, followed by the one that waits. That holds datagram by datagram, empty ones included.
-/

namespace TunnelRelay

/-- What a datagram socket took. -/
def Event.dispatched? : Event → Option Bytes
  | .send _ _ (.ok datagram) => some datagram
  | _ => none

/-- What a datagram socket delivered. -/
def Event.fetched? : Event → Option Bytes
  | .receive _ _ (.ok datagram) => some datagram
  | _ => none

def Event.isReceive : Event → Bool
  | .receive _ _ _ => true
  | _ => false

/-- A send for which the socket was not ready. -/
def Event.isPutOff : Event → Bool
  | .send _ _ (.error .wouldBlock) => true
  | .send _ _ (.error .interrupted) => true
  | _ => false

/-- The payload of a packet that can be read. -/
def Packet.datagram? (packet : Packet) : Option Bytes :=
  match packet.payload with
  | .ok found => found
  | .error _ => none

namespace UdpFlow

def Mark.passed? (mark : Mark) : Option Bytes :=
  match mark.sent? with
  | some sent => if sent.taken then sent.packet.datagram? else none
  | none => none

def dispatched (steps : List Step) : List Bytes := (calls steps).filterMap Event.dispatched?

def fetched (steps : List Step) : List Bytes := (calls steps).filterMap Event.fetched?

def passed (steps : List Step) : List Bytes := steps.filterMap fun step => step.mark.passed?

/-- The datagram of the packet that waits, if there is one. -/
def held (f : UdpFlow) : List Bytes :=
  if f.pending then
    match f.reply.latestData with
    | .ok packet => packet.datagram?.toList
    | .error _ => []
  else []

/-- No datagram is lost, doubled, changed or out of order, in either direction. -/
structure Relayed (journal : List Step) (f : UdpFlow) : Prop where
  outward : dispatched journal ++ f.ring.toList = accepted journal
  inward : fetched journal = passed journal ++ f.held

variable {σ : Type} [Outlet σ] {stimulus : Stimulus} {now : Nat} {f g : UdpFlow} {r r' : Registry}
  {out out' : σ} {mark : Mark} {journal pre : List Step} {step : Step} {s : Scene UdpFlow σ}

private structure Exact (journal : List Step) (f : UdpFlow) : Prop where
  plain : Plain f.reply.ipv4 f.reply.transport
  holds : f.ring.Holds f.ring.toList
  relayed : Relayed journal f
  waiting : f.pending = true → ∃ datagram, f.held = [datagram]

private theorem dispatched_concat (step : Step) :
    dispatched (journal ++ [step]) =
      dispatched journal ++ (step.mark.calls step.before).filterMap Event.dispatched? := by
  simp [dispatched, calls]

private theorem fetched_concat (step : Step) :
    fetched (journal ++ [step]) =
      fetched journal ++ (step.mark.calls step.before).filterMap Event.fetched? := by
  simp [fetched, calls]

private theorem passed_concat (step : Step) :
    passed (journal ++ [step]) = passed journal ++ step.mark.passed?.toList := by
  cases h : step.mark.passed? <;> simp [passed, h]

private theorem accepted_concat (step : Step) :
    accepted (journal ++ [step]) = accepted journal ++ step.mark.accepted?.toList := by
  cases h : step.mark.accepted? <;> simp [accepted, h]

private structure Adds (f : UdpFlow) (mark : Mark) (outgoing incoming taken offered : List Bytes) :
    Prop where
  dispatched_eq : (mark.calls f).filterMap Event.dispatched? = outgoing
  fetched_eq : (mark.calls f).filterMap Event.fetched? = incoming
  accepted_eq : mark.accepted?.toList = taken
  passed_eq : mark.passed?.toList = offered

private theorem Exact.move {outgoing incoming taken offered : List Bytes} (h : Exact journal f)
    (adds : Adds f mark outgoing incoming taken offered)
    (plain : Plain g.reply.ipv4 g.reply.transport) (holds : g.ring.Holds g.ring.toList)
    (outward : outgoing ++ g.ring.toList = f.ring.toList ++ taken)
    (inward : f.held ++ incoming = offered ++ g.held)
    (waiting : g.pending = true → ∃ datagram, g.held = [datagram]) :
    Exact (journal ++ [⟨f, mark, g⟩]) g := by
  refine ⟨plain, holds, ⟨?_, ?_⟩, waiting⟩
  · rw [dispatched_concat, accepted_concat, adds.dispatched_eq, adds.accepted_eq, List.append_assoc,
      outward, ← List.append_assoc, h.relayed.outward]
  · rw [fetched_concat, passed_concat, adds.fetched_eq, adds.passed_eq, List.append_assoc, ← inward,
      ← List.append_assoc, h.relayed.inward]

private theorem held_of_idle (idle : f.pending = false) : f.held = [] := by
  rw [held, idle]
  rfl

private theorem held_congr (pending_eq : g.pending = f.pending)
    (latest : f.pending = true → g.reply.latestData = f.reply.latestData) : g.held = f.held := by
  cases pending : f.pending with
  | false => rw [held_of_idle pending, held_of_idle (pending_eq.trans pending)]
  | true => rw [held, held, pending_eq, latest pending]

private theorem Exact.outward {outgoing taken content : List Bytes} (h : Exact journal f)
    (adds : Adds f mark outgoing [] taken []) (reply_eq : g.reply = f.reply)
    (pending_eq : g.pending = f.pending) (holds : g.ring.Holds content)
    (balance : outgoing ++ content = f.ring.toList ++ taken) :
    Exact (journal ++ [⟨f, mark, g⟩]) g := by
  have held_eq : g.held = f.held := held_congr pending_eq fun _ => congrArg _ reply_eq
  refine h.move adds (reply_eq ▸ h.plain) (holds.toList_eq ▸ holds) ?_ ?_ ?_
  · rw [holds.toList_eq, balance]
  · rw [held_eq, List.nil_append, List.append_nil]
  · rw [held_eq, pending_eq]
    exact h.waiting

private theorem Exact.aside (h : Exact journal f) (adds : Adds f mark [] [] [] [])
    (plain : Plain g.reply.ipv4 g.reply.transport) (ring_eq : g.ring = f.ring)
    (pending_eq : g.pending = f.pending)
    (latest : f.pending = true → g.reply.latestData = f.reply.latestData) :
    Exact (journal ++ [⟨f, mark, g⟩]) g := by
  have held_eq := held_congr pending_eq latest
  refine h.move adds plain (ring_eq ▸ h.holds) ?_ ?_ ?_
  · rw [ring_eq, List.nil_append, List.append_nil]
  · rw [held_eq, List.nil_append, List.append_nil]
  · rw [held_eq, pending_eq]
    exact h.waiting

private theorem not_transfer_pollerCall (r : Registration) (socket : SocketId)
    (wanted : Option Interest) (outcome : Outcome) :
    (r.pollerCall socket wanted outcome).dispatched? = none ∧
      (r.pollerCall socket wanted outcome).fetched? = none := by
  unfold Registration.pollerCall
  split <;> exact ⟨rfl, rfl⟩

private theorem Ends.adds {ending : Ending} {registration : Registration} {call : Option Event}
    (h : Ends stimulus f ending g) (cancels : g.registration.Cancels g.socket registration call) :
    Adds f (.closed ending call) [] [] [] [] := by
  have last : call.toList.filterMap Event.dispatched? = [] ∧
      call.toList.filterMap Event.fetched? = [] := by
    cases cancels <;> exact ⟨rfl, rfl⟩
  have first : (ending.calls f.socket).filterMap Event.dispatched? = [] ∧
      (ending.calls f.socket).filterMap Event.fetched? = [] := by
    cases h with
    | refused _ kind =>
      obtain ⟨dispatched, fetched⟩ := not_transfer_pollerCall f.registration f.socket f.wanted (some kind)
      exact ⟨List.filterMap_cons_none dispatched, List.filterMap_cons_none fetched⟩
    | sendError | receiveError | disconnected => exact ⟨rfl, rfl⟩
  refine ⟨?_, ?_, rfl, rfl⟩
  · rw [Mark.calls, List.filterMap_append, first.1, last.1, List.append_nil]
  · rw [Mark.calls, List.filterMap_append, first.2, last.2, List.append_nil]

private theorem held_of_offer {sent : Sent} {datagram : Bytes} (mark : Mark)
    (offered : mark.sent? = some sent) (payload : sent.packet.payload = .ok (some datagram))
    (pending : g.pending = !sent.taken) (latest : g.reply.latestData = .ok sent.packet) :
    mark.passed?.toList ++ g.held = [datagram] ∧
      (g.pending = true → ∃ datagram, g.held = [datagram]) := by
  have found : sent.packet.datagram? = some datagram := by rw [Packet.datagram?, payload]
  rw [Mark.passed?, offered, held, pending, latest]
  cases taken : sent.taken with
  | true => exact ⟨by simp [taken, found], nofun⟩
  | false => exact ⟨by simp [taken, found], fun _ => ⟨datagram, by simp [found]⟩⟩

private theorem Exact.delivered {size : Nat} {datagram : Bytes} {reply reply' reply'' : Reply}
    {sent : Sent} (h : Exact journal f) (receives : f.Receives size reply)
    (committed : reply.commit datagram datagram.length = .ok reply')
    (completed : reply'.completeData = .ok (sent.packet, reply''))
    (hg : g = { f with reply := reply'', idleSince := now, pending := !sent.taken }) :
    Exact (journal ++ [⟨f, .delivered size datagram sent, g⟩]) g := by
  obtain ⟨-, data, rfl, filled⟩ := Reply.reserve_inv receives.started
  have plain : Plain ({ f.reply with data } : Reply).ipv4 ({ f.reply with data } : Reply).transport :=
    h.plain
  obtain ⟨carries, data', rfl, filled'⟩ :=
    Reply.commit_completeData_inv plain filled committed completed
  have latest : g.reply.latestData = .ok sent.packet := by
    rw [hg, Reply.latestData]
    exact (congrArg Packet.ofBytes filled').trans (carries.ofBytes_eq plain)
  obtain ⟨balance, waiting⟩ := held_of_offer (.delivered size datagram sent) rfl
    (carries.payload_eq plain) (congrArg UdpFlow.pending hg) latest
  have adds : Adds f (.delivered size datagram sent) [] [datagram] []
      (Mark.delivered size datagram sent).passed?.toList := by
    refine ⟨?_, ?_, rfl, rfl⟩ <;> rw [Mark.calls] <;> cases sent.taken <;> rfl
  refine h.move adds (hg ▸ plain) (hg ▸ h.holds) ?_ ?_ waiting
  · rw [hg, List.nil_append, List.append_nil]
  · rw [held_of_idle receives.idle, balance]
    rfl

private theorem Exact.retried {sent : Sent} (h : Exact journal f) (pending : f.pending = true)
    (latest : f.reply.latestData = .ok sent.packet)
    (hg : g = { f with pending := !sent.taken }) :
    Exact (journal ++ [⟨f, .retried sent, g⟩]) g := by
  obtain ⟨datagram, held_eq⟩ := h.waiting pending
  have payload : sent.packet.payload = .ok (some datagram) := by
    rw [held, pending, latest] at held_eq
    replace held_eq : sent.packet.datagram?.toList = [datagram] := held_eq
    unfold Packet.datagram? at held_eq
    split at held_eq
    · next found same =>
      rw [same, Option.toList_eq_singleton_iff.1 held_eq]
    · cases held_eq
  obtain ⟨balance, waiting⟩ := held_of_offer (.retried sent) rfl payload
    (congrArg UdpFlow.pending hg) (hg ▸ latest)
  have adds : Adds f (.retried sent) [] [] [] (Mark.retried sent).passed?.toList := by
    refine ⟨?_, ?_, rfl, rfl⟩ <;> rw [Mark.calls] <;> cases sent.taken <;> rfl
  refine h.move adds (hg ▸ h.plain) (hg ▸ h.holds) ?_ ?_ waiting
  · rw [hg, List.nil_append, List.append_nil]
  · rw [balance, held_eq, List.append_nil]

private theorem Move.exact (h : Exact journal f)
    (move : Move stimulus now ⟨f, r, out⟩ mark ⟨g, r', out'⟩) :
    Exact (journal ++ [⟨f, mark, g⟩]) g := by
  have idle {p : Prop} (idle : f.pending = false) (pending : f.pending = true) : p :=
    absurd (idle.symm.trans pending) Bool.false_ne_true
  cases move with
  | @stored _ _ _ payload _ _ _ pushed =>
    have adds : Adds f (.stored payload) [] [] [payload] [] := ⟨rfl, rfl, rfl, rfl⟩
    exact h.outward adds rfl rfl (h.holds.push pushed) rfl
  | @dropped _ _ _ payload _ _ _ pushed =>
    have adds : Adds f (.dropped payload) [] [] [] [] := ⟨rfl, rfl, rfl, rfl⟩
    exact h.outward adds rfl rfl (h.holds.push pushed) rfl
  | @forwarded _ _ _ datagram _ sends popped =>
    have adds : Adds f (.forwarded datagram) [datagram] [] [] [] := ⟨rfl, rfl, rfl, rfl⟩
    obtain ⟨rest, content⟩ := List.head?_eq_some_iff.1 (h.holds.front_eq sends.front_eq).symm
    refine h.outward adds rfl rfl (h.holds.pop popped) ?_
    rw [content]
    exact (List.append_nil _).symm
  | unsent _ _ => exact h.aside ⟨rfl, rfl, rfl, rfl⟩ h.plain rfl rfl fun _ => rfl
  | missed receives _ =>
    obtain ⟨-, data, rfl, -⟩ := Reply.reserve_inv receives.started
    exact h.aside ⟨rfl, rfl, rfl, rfl⟩ h.plain rfl rfl (idle receives.idle)
  | delivered receives committed completed _ => exact h.delivered receives committed completed rfl
  | retried _ pending latest _ => exact h.retried pending latest rfl
  | told _ _ =>
    obtain ⟨dispatched, fetched⟩ := not_transfer_pollerCall f.registration f.socket f.wanted none
    refine h.aside ⟨?_, ?_, rfl, rfl⟩ h.plain rfl rfl fun _ => rfl
    · exact List.filterMap_cons_none dispatched
    · exact List.filterMap_cons_none fetched
  | closed _ ends cancels =>
    have adds := ends.adds cancels
    cases ends with
    | receiveError receives _ =>
      obtain ⟨-, data, rfl, -⟩ := Reply.reserve_inv receives.started
      exact h.aside adds h.plain rfl rfl (idle receives.idle)
    | sendError | refused | disconnected => exact h.aside adds h.plain rfl rfl fun _ => rfl

private theorem Fresh.exact (hf : Fresh f) : Exact [] f := by
  have empty : f.ring.toList = [] := hf.empty.toList_eq
  refine ⟨hf.plain, empty ▸ hf.empty, ⟨empty, ?_⟩, ?_⟩
  · rw [held_of_idle hf.pending_eq]
    rfl
  · exact fun pending => absurd (hf.pending_eq.symm.trans pending) Bool.false_ne_true

private theorem aside_pollerCall (r : Registration) (socket : SocketId) (wanted : Option Interest)
    (outcome : Outcome) : (r.pollerCall socket wanted outcome).isReceive = false ∧
      (r.pollerCall socket wanted outcome).isPutOff = false := by
  unfold Registration.pollerCall
  split <;> exact ⟨rfl, rfl⟩

private theorem Move.calls_spec (move : Move stimulus now ⟨f, r, out⟩ mark ⟨g, r', out'⟩) :
    ∀ event ∈ mark.calls f, (event.isReceive = true → f.pending = false) ∧
      (event.isPutOff = true → g = f) := by
  have aside {event : Event} {g : UdpFlow}
      (h : event.isReceive = false ∧ event.isPutOff = false) :
      (event.isReceive = true → f.pending = false) ∧ (event.isPutOff = true → g = f) :=
    ⟨fun h' => absurd (h.1.symm.trans h') Bool.false_ne_true,
      fun h' => absurd (h.2.symm.trans h') Bool.false_ne_true⟩
  have offered {sent : Sent} {g : UdpFlow} :
      ∀ event ∈ if sent.taken then [] else [Event.await f.key],
      (event.isReceive = true → f.pending = false) ∧ (event.isPutOff = true → g = f) := by
    split
    · exact List.forall_mem_nil _
    · exact List.forall_mem_singleton.2 (aside ⟨rfl, rfl⟩)
  cases move with
  | stored | dropped => exact List.forall_mem_nil _
  | forwarded _ _ => exact List.forall_mem_singleton.2 (aside ⟨rfl, rfl⟩)
  | unsent _ _ => exact List.forall_mem_singleton.2 ⟨nofun, fun _ => rfl⟩
  | missed receives _ => exact List.forall_mem_singleton.2 ⟨fun _ => receives.idle, nofun⟩
  | delivered receives _ _ _ =>
    refine List.forall_mem_cons.2 ⟨⟨fun _ => receives.idle, nofun⟩, ?_⟩
    exact List.forall_mem_cons.2 ⟨aside ⟨rfl, rfl⟩, offered⟩
  | retried _ _ _ _ => exact List.forall_mem_cons.2 ⟨aside ⟨rfl, rfl⟩, offered⟩
  | told _ _ => exact List.forall_mem_singleton.2 (aside (aside_pollerCall ..))
  | closed _ ends cancels =>
    refine List.forall_mem_append.2 ⟨?_, ?_⟩
    · cases ends with
      | @sendError _ _ kind failed =>
        refine List.forall_mem_singleton.2 (aside ⟨rfl, ?_⟩)
        cases kind with
        | wouldBlock => exact absurd rfl failed.1
        | interrupted => exact absurd rfl failed.2
        | _ => rfl
      | receiveError receives _ => exact List.forall_mem_singleton.2 ⟨fun _ => receives.idle, nofun⟩
      | refused _ kind => exact List.forall_mem_singleton.2 (aside (aside_pollerCall ..))
      | disconnected _ => exact List.forall_mem_nil _
    · cases cancels with
      | unknown _ => exact List.forall_mem_nil _
      | known _ _ => exact List.forall_mem_singleton.2 (aside ⟨rfl, rfl⟩)

/-- In every run datagrams are relayed one by one and as they are. What the flow accepts is what its
packets carry as far as there is room; what is sent is the oldest datagram; a send that the socket puts
off changes nothing; and nothing is received while a packet waits. -/
theorem Run.datagrams_intact (run : Run journal s) :
    Continues journal s ∧ Relayed journal s.self ∧ ∀ pre step, pre ++ [step] <+: journal →
      Relayed pre step.before ∧ Relayed (pre ++ [step]) step.after ∧
      (∀ datagram, step.mark = .forwarded datagram →
        step.before.ring.toList = datagram :: step.after.ring.toList) ∧
      ∀ event ∈ step.mark.calls step.before,
        (event.isReceive = true → step.before.pending = false) ∧
        (event.isPutOff = true → step.after = step.before) := by
  refine ⟨run.continues, (run.invariant (I := Exact) Fresh.exact Move.exact).relayed, ?_⟩
  rintro pre ⟨f, mark, g⟩ h
  obtain ⟨before, after, stimulus, now, r, r', out, out', move⟩ :=
    run.invariant_step (I := Exact) Fresh.exact Move.exact h
  change Move stimulus now ⟨f, r, out⟩ mark ⟨g, r', out'⟩ at move
  refine ⟨before.relayed, after.relayed, ?_, move.calls_spec⟩
  rintro datagram ⟨⟩
  cases move with
  | forwarded sends popped =>
    obtain ⟨rest, content⟩ := List.head?_eq_some_iff.1 (before.holds.front_eq sends.front_eq).symm
    rw [content, (before.holds.pop popped).toList_eq, content]
    rfl

/-- Three datagrams of which the socket takes two, an empty one among them, and two answers of which
the device takes one. -/
theorem datagrams_intact_held : ∃ journal, ∃ s : Scene UdpFlow Credit, Run journal s ∧
    dispatched journal = [[1, 2], []] ∧ accepted journal = [[1, 2], [], [3]] ∧
      fetched journal = [[7], [8, 9]] ∧ passed journal = [[7]] ∧ Relayed journal s.self := by
  obtain ⟨journal, s, run, result⟩ := exists_run_of_enacts
    (p := fun events t => events.filterMap Event.dispatched? == [[1, 2], []] &&
      events.filterMap Event.fetched? == [[7], [8, 9]] && t.self.ring.toList == [[3]] &&
      t.self.held == [[8, 9]])
    (show enacts (devicePacket [1, 2]) { datagramCapacity := 16 }
      { sockets := [(0, {
          transfers := [.failure .interrupted, .everything, .everything, .failure .wouldBlock]
          arrivals := [.data [7], .data [8, 9]] })] }
      [(⟨none⟩, .ofDevice [1, 2]), (⟨none⟩, .ofDevice []), (⟨none⟩, .ofDevice [3]),
        (⟨some 1⟩, .ready { readable := true })] _ = true by
      decide +kernel)
  simp only [Bool.and_eq_true, beq_iff_eq] at result
  obtain ⟨⟨⟨dispatched_eq, fetched_eq⟩, ring_eq⟩, held_eq⟩ := result
  have relayed := run.datagrams_intact.2.1
  refine ⟨journal, s, run, dispatched_eq, ?_, fetched_eq, ?_, relayed⟩
  · rw [← relayed.outward, ring_eq, show dispatched journal = _ from dispatched_eq]
    rfl
  · have inward := relayed.inward
    rw [held_eq, show fetched journal = _ from fetched_eq] at inward
    change [[7]] ++ [[8, 9]] = passed journal ++ [[8, 9]] at inward
    exact (List.append_cancel_right inward).symm

end UdpFlow

end TunnelRelay
