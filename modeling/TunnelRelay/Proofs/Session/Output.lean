import TunnelRelay.Proofs.Feeding
import TunnelRelay.Proofs.Session.Trace

/-!
# What goes out on the tunnel

The tunnel takes the packets that the outbox has taken, one after the other. What it has taken may end
within a packet; whoever frames it gets the packets before that and nothing else.
-/

namespace TunnelRelay

open Act

theorem Registration.taken?_pollerCall {r : Registration} {socket : SocketId} (other : SocketId)
    (wanted : Option Interest) (outcome : Outcome) :
    (r.pollerCall socket wanted outcome).taken? other = none := by
  unfold pollerCall
  split <;> rfl

namespace Session

def written (socket : SocketId) (deeds : List Deed) : Bytes :=
  ((calls socket deeds).filterMap (Event.taken? socket)).flatten

/-- The packets that the outbox has taken, first ones first. -/
def accepted (socket : SocketId) (deeds : List Deed) : List Bytes :=
  Event.posted (calls socket deeds)

def Deed.key? : Deed → Option FlowKey
  | served task _ => task.key?
  | _ => none

variable {deeds : List Deed} {deed : Deed} {s t : Scene Session Unit} {socket : SocketId}

private theorem calls_concat (socket : SocketId) (deeds : List Deed) (deed : Deed) :
    calls socket (deeds ++ [deed]) = calls socket deeds ++ deed.calls socket := by
  simp [calls]

private theorem ring_relieved (coherent : Coherent s) (nonempty : s.self.outbox.ring.isEmpty = false)
    {front taken : Bytes} (offered : s.self.outbox.ring.front = .ok front)
    (answer : (s.host.write s.self.socket front).1 = .ok taken) :
    s.self.outbox.ring.toList = taken ++ (s.self.relieved (.ok taken)).outbox.ring.toList := by
  obtain ⟨first, -, fits⟩ := StreamRing.front_eq coherent.ring nonempty offered
  have part := Host.write_prefix answer
  have short : taken.length ≤ front.length := by
    have length := congrArg List.length part
    rw [List.length_take] at length
    omega
  -- The tunnel takes the front of what it is offered, which is the front of the ring.
  have taken_eq : taken = s.self.outbox.ring.toList.take taken.length := by
    rw [first, List.take_take, Nat.min_eq_left short] at part
    exact part
  cases taken with
  | nil => rfl
  | cons b bytes =>
    have left := StreamRing.toList_drop coherent.ring (Nat.le_trans short fits)
    change _ = _ ++ (s.self.outbox.ring.drop (b :: bytes).length).toList
    rw [left]
    exact (List.take_append_drop _ _).symm.trans (congrArg (· ++ _) taken_eq.symm)

/-- What a move adds to the outbox comes last, and what it writes was first. -/
theorem Move.ring (coherent : Coherent s) (h : Move s deed t) :
    s.self.outbox.ring.toList ++ (Event.posted (deed.calls s.self.socket)).flatten =
      ((deed.calls s.self.socket).filterMap (Event.taken? s.self.socket)).flatten ++
        t.self.outbox.ring.toList := by
  cases h with
  | read => simp [Deed.calls, Event.posted, Event.posted?, Event.taken?, List.filterMap_cons]
  | told => simp [Deed.calls, Registration.posted_pollerCall, Registration.taken?_pollerCall]
  | @wrote _ _ nonempty front offered result host answer =>
    cases result with
    | error kind =>
      simp [Deed.calls, Event.posted, Event.posted?, Event.taken?, relieved, List.filterMap_cons]
    | ok taken =>
      have wrote : (s.host.write s.self.socket front).1 = .ok taken := by rw [answer]
      have content := ring_relieved coherent nonempty offered wrote
      simpa [Deed.calls, Event.posted, Event.posted?, Event.taken?, List.filterMap_cons] using content
  | @served _ _ due v ran calls adds =>
    -- The flows make no call on the tunnel, and what they send enters the ring last.
    have served := Task.served coherent due ran adds
    have mute : calls.filterMap (Event.taken? s.self.socket) = [] :=
      List.filterMap_eq_nil_iff.2 fun e mem => Event.taken?_of_spares (served.spares e mem)
    have takes := Task.takes due
    have grown := served.grows.toList_eq (takes.ring_eq ▸ coherent.ring)
    rw [takes.ring_eq] at grown
    simp only [Deed.calls, mute, List.flatten_nil, List.nil_append]
    exact grown.symm
  | closed isOpen _ ran adds =>
    have closes := closes_of_close coherent isOpen ran adds
    obtain ⟨_, -, same⟩ := closes.self_eq
    have mute := List.filterMap_eq_nil_iff.2 closes.mute
    simp [Deed.calls, closes.silent, mute, same]

/-- Whatever the outbox takes answers the flow that has acted. -/
theorem Move.answers (coherent : Coherent s) (h : Move s deed t) :
    ∀ packet ∈ Event.posted (deed.calls s.self.socket),
      ∃ key, deed.key? = some key ∧ Answers key packet := by
  cases h with
  | read | wrote => simp [Deed.calls, Event.posted, Event.posted?]
  | told => simp [Deed.calls, Registration.posted_pollerCall]
  | closed isOpen _ ran adds => simp [Deed.calls, (closes_of_close coherent isOpen ran adds).silent]
  | served _ due ran adds => exact (Task.served coherent due ran adds).answers coherent.suits

/-- What has gone out so far, against what the outbox holds. -/
structure Leaves (deeds : List Deed) (s : Session) : Prop where
  bytes_eq : written s.socket deeds ++ s.outbox.ring.toList = (accepted s.socket deeds).flatten
  answers : ∀ deed ∈ deeds, ∀ packet ∈ Event.posted (deed.calls s.socket),
    ∃ key, deed.key? = some key ∧ Answers key packet

theorem Fresh.leaves {session : Session} (fresh : Fresh session) : Leaves [] session :=
  ⟨fresh.empty, List.forall_mem_nil _⟩

theorem Move.leaves (coherent : Coherent s) (h : Move s deed t) (leaves : Leaves deeds s.self) :
    Leaves (deeds ++ [deed]) t.self where
  bytes_eq := by
    have before := leaves.bytes_eq
    simp only [written, accepted] at before
    simp only [written, accepted, (h.same coherent).socket_eq, calls_concat, List.filterMap_append,
      Event.posted_append, List.flatten_append]
    rw [← before, List.append_assoc, List.append_assoc, h.ring coherent]
  answers := by
    rw [(h.same coherent).socket_eq]
    exact List.forall_mem_append.2
      ⟨leaves.answers, List.forall_mem_singleton.2 (h.answers coherent)⟩

private theorem whole_of_accepted (leaves : Leaves deeds s.self) :
    ∀ packet ∈ accepted s.self.socket deeds, Whole packet := by
  intro packet mem
  obtain ⟨e, call, posted⟩ := List.mem_filterMap.1 mem
  obtain ⟨deed, made, part⟩ := List.mem_flatMap.1 call
  obtain ⟨_, -, answers⟩ := leaves.answers deed made packet (List.mem_filterMap.2 ⟨e, part, posted⟩)
  exact answers.whole

/-- The bytes that the tunnel has taken and those that the outbox holds are the packets that the
outbox has taken, each of which is a valid packet that goes back to the flow that was at work; a
packet that is refused leaves nothing behind. A buffer that is fed with what the tunnel has taken, in
any chunks that fit, gives out just those packets of which nothing is missing. -/
theorem Trace.output_framed (trace : Trace deeds s) :
    written s.self.socket deeds ++ s.self.outbox.ring.toList =
        (accepted s.self.socket deeds).flatten ∧
      (∀ deed ∈ deeds, ∀ packet ∈ Event.posted (deed.calls s.self.socket),
        ∃ key, deed.key? = some key ∧ Answers key packet) ∧
      (∀ packet (out out' : Outbox), Outlet.offer packet out = .ok (false, out') → out' = out) ∧
      ∃ k rest, Splits (written s.self.socket deeds) ((accepted s.self.socket deeds).take k) rest ∧
        (k = (accepted s.self.socket deeds).length ∧ rest = [] ∨
          ∃ packet, (accepted s.self.socket deeds)[k]? = some packet ∧ rest <+: packet ∧
            rest ≠ packet) ∧
        ∀ (fresh : Scene Framing Unit) (chunks : List Bytes), fresh.self = {} →
          chunks.flatten = written s.self.socket deeds → Framing.Fits [] chunks →
            (∃ t, Framing.Feeds fresh chunks ((accepted s.self.socket deeds).take k) t) ∧
              ∀ found t, Framing.Feeds fresh chunks found t →
                found = (accepted s.self.socket deeds).take k ∧ t.self.held = rest := by
  obtain ⟨leaves, -⟩ := trace.invariant_step Fresh.leaves fun coherent leaves step =>
    step.leaves coherent leaves
  obtain ⟨k, rest, splits, unfinished, next⟩ :=
    Splits.exists_of_flatten (whole_of_accepted leaves) leaves.bytes_eq
  refine ⟨leaves.bytes_eq, leaves.answers, fun _ _ _ refused => Outbox.eq_of_refused refused, k, rest,
    splits, next, fun fresh chunks empty all fits => ?_⟩
  exact Framing.feeds_of_empty empty splits.whole unfinished (all.trans splits.bytes_eq) fits

-- A device asks a question by a datagram and gets two answers, but its tunnel takes only one of
-- them and a part of the other.
private def interrupted : Host where
  sockets := [
    (0, {
      arrivals := [.data [0x45, 0, 0, 30, 0, 0, 0, 0, 64, 17, 0, 0, 10, 0, 0, 2, 93, 184, 216, 34,
        0x30, 0x39, 0, 53, 0, 10, 0, 0, 1, 2]]
      transfers := [.failure .interrupted, .upTo 40]
      blocked := true }),
    (1, { arrivals := [.data [3, 4], .data [5, 6, 7]] })]
  nextSocket := 1

private def asked : List Operation :=
  [.ready { readable := true },
    .flowReady ⟨.udp, ⟨0x0a000002, 0x3039⟩, ⟨0x5db8d822, 53⟩⟩ { readable := true }]

theorem output_framed_interrupted : ∃ deeds s, Trace deeds s ∧ s.self.closed = false ∧
    s.self.outbox.ring.toList.length = 21 ∧
    written s.self.socket deeds ++ s.self.outbox.ring.toList =
      (accepted s.self.socket deeds).flatten ∧
    ∃ k rest, Splits (written s.self.socket deeds) ((accepted s.self.socket deeds).take k) rest := by
  have enacted : enacts {} interrupted asked
      (fun s => !s.self.closed && s.self.outbox.ring.toList.length == 21) = true := by
    decide +kernel
  obtain ⟨s, run, ends⟩ := exists_run_of_enacts rfl (by decide) enacted
  simp only [Bool.and_eq_true, Bool.not_eq_true', beq_iff_eq] at ends
  obtain ⟨deeds, trace⟩ := run.exists_trace
  obtain ⟨bytes, -, -, k, rest, splits, -⟩ := trace.output_framed
  exact ⟨deeds, s, trace, ends.1, ends.2, bytes, k, rest, splits⟩

end Session

end TunnelRelay
