import TunnelRelay.Proofs.Feeding
import TunnelRelay.Proofs.Session.Trace

/-!
# What arrives on the tunnel

Whatever a session reads goes on where the packets that it has routed end. It reads only when no whole
packet is left to route, and it ends where no packet can follow, so that the packets it routes do not
depend on how the stream was cut into reads.
-/

namespace TunnelRelay

open Act

namespace Session

def Deed.arrived : Deed → Bytes
  | read _ (.ok bytes) => bytes
  | _ => []

def Deed.routed? : Deed → Option Bytes
  | served (.send packet) _ => some packet.bytes
  | _ => none

def arrived (deeds : List Deed) : Bytes := deeds.flatMap Deed.arrived

/-- The packets that were handed to the flows, first ones first. -/
def routed (deeds : List Deed) : List Bytes := deeds.filterMap Deed.routed?

/-- A move as it may be made when these bytes have been read and not routed. Only routing goes on when
there is a packet to route. -/
def Deed.Meets (rest : Bytes) : Deed → Prop
  | served (.send packet) _ => packet.bytes <+: rest ∧ Whole packet.bytes
  | closed (.corrupt declared) _ => Prospect.of rest = .corrupt declared
  | read size _ => Partial rest ∧ rest.length + size = maxPacketLength ∧ 0 < size
  | _ => Partial rest

/-- The packets are routed one after the other, and then the verdict is on what is left. Whatever stops
this earlier is the fault of routing one of them. -/
def Drains (s : Scene Session Unit) (packets : List Bytes) (rest : Bytes) : Prop :=
  (∃ fault, routeAll packets s = .error fault ∧ routePackets s = .error fault) ∨
    ∃ t host, routeAll packets s = .ok ((), t) ∧ t.self.framing.held = rest ∧
      t.host.After [] host ∧ routePackets s = .ok ((Prospect.of rest).verdict, { t with host })

variable {deeds : List Deed} {deed : Deed} {s t : Scene Session Unit} {rest : Bytes}

theorem arrived_concat (deeds : List Deed) (deed : Deed) :
    arrived (deeds ++ [deed]) = arrived deeds ++ deed.arrived := by
  simp [arrived]

theorem routed_concat (deeds : List Deed) (deed : Deed) :
    routed (deeds ++ [deed]) = routed deeds ++ deed.routed?.toList := by
  simp only [routed, List.filterMap_append, List.filterMap_cons, List.filterMap_nil]
  cases deed.routed? <;> rfl

private theorem meets_of_due {task : Task} (due : task.Due s.self) (calls : List Event) :
    (Deed.served task calls).Meets s.self.framing.held := by
  cases due with
  | @send packet seen parsed =>
    obtain ⟨whole, -⟩ := whole_of_prospect seen
    have bytes := Packet.bytes_of_ofBytes parsed
    exact ⟨bytes ▸ List.take_prefix _ _, bytes ▸ whole⟩
  | ready drained | pull drained | sweep drained => exact drained.partial

private theorem meets_of_fails {cause : Cause} {last : List Event} (fails : s.self.Fails last cause)
    (calls : List Event) : (Deed.closed cause calls).Meets s.self.framing.held := by
  cases fails with
  | corrupt seen => exact seen
  | endOfStream drained | readError drained | writeZero drained | writeError drained
  | refused drained => exact drained.partial

theorem Move.meets (coherent : Coherent s) (h : Move s deed t) :
    deed.Meets s.self.framing.held := by
  cases h with
  | read _ drained room _ => exact ⟨drained.partial, coherent.framing.of_room room⟩
  | served _ due _ _ => exact meets_of_due due _
  | wrote _ drained | told _ drained => exact drained.partial
  | closed _ fails _ _ => exact meets_of_fails fails _

/-- What is read is held behind what was held, and what is routed is taken from the front. -/
theorem Move.held (coherent : Coherent s) (h : Move s deed t) :
    s.self.framing.held ++ deed.arrived = deed.routed?.toList.flatten ++ t.self.framing.held := by
  cases h with
  | @read _ _ size room result host answer =>
    cases result with
    | error kind => simp [Deed.arrived, Deed.routed?, received]
    | ok bytes =>
      cases bytes with
      | nil => simp [Deed.arrived, Deed.routed?, received]
      | cons b bytes =>
        have read : (s.host.read s.self.socket size).1 = .ok (b :: bytes) := by rw [answer]
        have short := Host.length_read_le read
        -- A read yields no more than there is room for.
        obtain ⟨total, -⟩ := coherent.framing.of_room room
        have fits : s.self.framing.held.length + (b :: bytes).length ≤ maxPacketLength := by omega
        exact (coherent.framing.append fits).2.symm
  | wrote | told => simp [Deed.arrived, Deed.routed?]
  | closed isOpen _ ran adds =>
    obtain ⟨_, -, same⟩ := (closes_of_close coherent isOpen ran adds).self_eq
    simp [Deed.arrived, Deed.routed?, same]
  | served _ due _ _ =>
    cases due with
    | ready | pull | sweep => simp [Deed.arrived, Deed.routed?, Task.takenFrom]
    | @send packet seen parsed =>
      have bytes := Packet.bytes_of_ofBytes parsed
      have left := (coherent.framing.drop (whole_of_prospect seen).2).2
      simp only [Deed.arrived, Deed.routed?, Option.toList_some, List.flatten_singleton,
        List.append_nil, Task.takenFrom]
      rw [left]
      exact (List.take_append_drop packet.length _).symm.trans (congrArg (· ++ _) bytes.symm)

/-- What was read so far, against what the session has. -/
structure Arrives (deeds : List Deed) (s : Session) : Prop where
  bytes_eq : arrived deeds = (routed deeds).flatten ++ s.framing.held
  whole : ∀ packet ∈ routed deeds, Whole packet
  ended : s.closed = true → ∃ before cause calls, deeds = before ++ [.closed cause calls]

theorem Fresh.arrives {session : Session} (fresh : Fresh session) : Arrives [] session where
  bytes_eq := by
    rw [fresh.framing_eq, Framing.held_empty]
    rfl
  whole := List.forall_mem_nil _
  ended closed := by
    rw [fresh.isOpen] at closed
    cases closed

theorem Move.arrives (coherent : Coherent s) (h : Move s deed t) (arrives : Arrives deeds s.self) :
    Arrives (deeds ++ [deed]) t.self where
  bytes_eq := by
    rw [arrived_concat, routed_concat, arrives.bytes_eq, List.append_assoc, h.held coherent,
      List.flatten_append, List.append_assoc]
  whole := by
    rw [routed_concat]
    refine List.forall_mem_append.2 ⟨arrives.whole, fun packet mem => ?_⟩
    have meets := h.meets coherent
    cases deed with
    | served task calls =>
      cases task with
      | send p =>
        obtain rfl : packet = p.bytes := by simpa [Deed.routed?] using mem
        exact meets.2
      | ready | pull | sweep => simp [Deed.routed?] at mem
    | read | wrote | told | closed => simp [Deed.routed?] at mem
  ended closed := by
    obtain ⟨cause, calls, rfl⟩ := h.of_closed closed
    exact ⟨deeds, cause, calls, rfl⟩

private theorem Trace.arrives (trace : Trace deeds s) : Arrives deeds s.self ∧
    ∀ before deed, before ++ [deed] <+: deeds →
      ∃ rest, arrived before = (routed before).flatten ++ rest ∧ deed.Meets rest := by
  obtain ⟨last, steps⟩ := trace.invariant_step Fresh.arrives fun coherent arrives step =>
    step.arrives coherent arrives
  refine ⟨last, fun before deed first => ?_⟩
  obtain ⟨s, t, coherent, step, arrives, -⟩ := steps before deed first
  exact ⟨s.self.framing.held, arrives.bytes_eq, step.meets coherent⟩

private theorem Trace.meets_of_closed (trace : Trace deeds s) (closed : s.self.closed = true) :
    ∃ before cause calls, deeds = before ++ [.closed cause calls] ∧
      (Deed.closed cause calls).Meets s.self.framing.held := by
  obtain ⟨arrives, meets⟩ := trace.arrives
  obtain ⟨before, cause, calls, rfl⟩ := arrives.ended closed
  obtain ⟨rest, bytes, meets⟩ := meets before _ (List.prefix_refl _)
  -- The last move took nothing in and gave nothing out, so that it met what is held still.
  have all := arrives.bytes_eq
  simp only [arrived_concat, routed_concat, Deed.arrived, Deed.routed?, Option.toList_none,
    List.append_nil, bytes] at all
  exact ⟨before, cause, calls, rfl, List.append_cancel_left all ▸ meets⟩

private theorem Trace.drained (trace : Trace deeds s) (isOpen : s.self.closed = false) :
    s.self.framing.Drained :=
  (trace.run.rests.resolve_left (by simp [isOpen])).intact.drained

private theorem Trace.held_cases (trace : Trace deeds s) : Partial s.self.framing.held ∨
    s.self.closed = true ∧ ∃ declared before calls,
      Prospect.of s.self.framing.held = .corrupt declared ∧
        deeds = before ++ [.closed (.corrupt declared) calls] := by
  cases closed : s.self.closed with
  | false => exact .inl (trace.drained closed).partial
  | true =>
    obtain ⟨before, cause, calls, last, meets⟩ := trace.meets_of_closed closed
    cases cause with
    | corrupt declared => exact .inr ⟨rfl, declared, before, calls, meets, last⟩
    | endOfStream | readError | writeError | refused => exact .inl meets

private theorem Trace.splits (trace : Trace deeds s) :
    Splits (arrived deeds) (routed deeds) s.self.framing.held := by
  obtain ⟨arrives, -⟩ := trace.arrives
  -- Neither the beginning of a packet nor a corrupt stream is a whole packet.
  rw [arrives.bytes_eq]
  refine .of_flatten arrives.whole ?_
  rcases trace.held_cases with unfinished | ⟨-, declared, _, _, seen, -⟩
  · exact unfinished.prospect.1
  · rw [seen]
    exact nofun

private theorem Trace.corrupt_iff (trace : Trace deeds s) (declared : Nat) :
    Prospect.of s.self.framing.held = .corrupt declared ↔ s.self.closed = true ∧
      ∃ before calls, deeds = before ++ [.closed (.corrupt declared) calls] := by
  constructor
  · intro seen
    rcases trace.held_cases with unfinished | ⟨closed, declared', before, calls, seen', last⟩
    · exact absurd seen (unfinished.prospect.2 declared)
    · obtain rfl := Prospect.corrupt.inj (seen.symm.trans seen')
      exact ⟨closed, before, calls, last⟩
  · rintro ⟨closed, before, calls, last⟩
    obtain ⟨before', cause, calls', last', meets⟩ := trace.meets_of_closed closed
    obtain ⟨-, ⟨⟩⟩ := List.append_inj' (last.symm.trans last') rfl
    exact meets

theorem routePackets_drains {packets : List Bytes} (sound : s.self.framing.Sound)
    (splits : Splits s.self.framing.held packets rest) : Drains s packets rest := by
  refine (routePackets_eq sound splits).imp_right ?_
  rintro ⟨t, host, routed, called, drained⟩
  exact ⟨t, host, routed, held_of_routeAll sound splits routed, called, drained⟩

/-- The packets that a session routes are those that the bytes it has read begin with. It reads on
only when all of them have been routed and the rest is the beginning of one more packet, for which
there is room; it ends for a corrupt stream where, and only where, a length is declared that no packet
has. Draining what is held never runs out of rounds; and a buffer that is fed with any stream in any
chunks that fit gives out the packets of that stream. -/
theorem Trace.input_framed (trace : Trace deeds s) :
    Splits (arrived deeds) (routed deeds) s.self.framing.held ∧
      (∀ before deed, before ++ [deed] <+: deeds →
        ∃ rest, arrived before = (routed before).flatten ++ rest ∧ deed.Meets rest) ∧
      (s.self.closed = false → Partial s.self.framing.held ∧
        ∃ room, s.self.framing.room = .ok room ∧ 0 < room) ∧
      (∀ declared, Prospect.of s.self.framing.held = .corrupt declared ↔ s.self.closed = true ∧
        ∃ before calls, deeds = before ++ [.closed (.corrupt declared) calls]) ∧
      (∀ packets, (∀ packet ∈ packets, Whole packet) → arrived deeds = packets.flatten →
        routed deeds = packets ∧ s.self.framing.held = []) ∧
      (∀ t packets rest, t.self.framing.Sound → Splits t.self.framing.held packets rest →
        Drains t packets rest ∧ ∀ declared, Prospect.of rest = .corrupt declared →
          ∃ failure, (Prospect.of rest).verdict = .error failure ∧ failure.kind = .invalidData) ∧
      ∀ (fresh : Scene Framing Unit) (chunks packets : List Bytes) (rest : Bytes),
        fresh.self = {} → Framing.Fits [] chunks → (∀ packet ∈ packets, Whole packet) →
        Partial rest → chunks.flatten = packets.flatten ++ rest →
          (∃ t, Framing.Feeds fresh chunks packets t) ∧
            ∀ found t, Framing.Feeds fresh chunks found t → found = packets ∧ t.self.held = rest := by
  have splits := trace.splits
  refine ⟨splits, trace.arrives.2, fun isOpen => ?_, trace.corrupt_iff, ?_, ?_, ?_⟩
  · have unfinished := (trace.drained isOpen).partial
    have sound := trace.run.coherent_rests.1.framing
    refine ⟨unfinished, _, sound.room_eq unfinished.length_lt, ?_⟩
    exact Nat.sub_pos_of_lt unfinished.length_lt
  · intro packets whole all
    have whole' : Splits (packets.flatten ++ []) packets [] := .of_flatten whole nofun
    rw [List.append_nil, ← all] at whole'
    exact splits.unique whole'
  · intro t packets rest sound splits
    refine ⟨routePackets_drains sound splits, fun declared seen => ?_⟩
    rw [seen]
    exact ⟨_, rfl, rfl⟩
  · intro fresh chunks packets rest empty fits whole unfinished all
    exact Framing.feeds_of_empty empty whole unfinished all fits

-- A device asks for a connection in two pieces, the second of which goes on with a little of
-- another packet.
private def piecemeal : Host :=
  let packet := TcpFlow.devicePacket .syn 0x110 0 []
  { sockets := [(0, { arrivals := [.data (packet.take 10), .failure .interrupted,
      .data (packet.drop 10 ++ packet.take 3)] })]
    nextSocket := 1 }

theorem input_framed_piecemeal : ∃ deeds s, Trace deeds s ∧ s.self.table.flows.length = 1 ∧
    s.self.framing.held.length = 3 ∧ Splits (arrived deeds) (routed deeds) s.self.framing.held ∧
    Partial s.self.framing.held := by
  have enacted : enacts {} piecemeal [.ready { readable := true }] (fun s =>
      !s.self.closed && s.self.table.flows.length == 1 && s.self.framing.held.length == 3) = true := by
    decide +kernel
  obtain ⟨s, run, ends⟩ := exists_run_of_enacts rfl (by decide) enacted
  simp only [Bool.and_eq_true, Bool.not_eq_true', beq_iff_eq] at ends
  obtain ⟨⟨isOpen, flows⟩, held⟩ := ends
  obtain ⟨deeds, trace⟩ := run.exists_trace
  obtain ⟨splits, -, unfinished, -⟩ := trace.input_framed
  exact ⟨deeds, s, trace, flows, held, splits, (unfinished isOpen).1⟩

end Session

end TunnelRelay
