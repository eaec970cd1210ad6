import TunnelRelay.Proofs.Answers
import TunnelRelay.Proofs.Reply.Builds

/-!
# Packets that respond to a request

The packets of a reply go back to where its request came from. They have headers without options that
declare the right lengths, the values that were set last in a segment's fields, the payload that they were
built with, and checksums that verify.
-/

namespace TunnelRelay.Reply

/-- The value of a field that was set last, or the first value where none was set. -/
def lastSet {α : Type} (pick : TcpEdit → Option α) (operations : List Operation) (first : α) : α :=
  ((operations.filterMap Operation.set?).reverse.findSome? pick).getD first

/-- The packet consists of these headers and the payload, and responds to the request with what was set
by the operations. -/
structure Responds (request : Packet) (operations : List Operation) (payload : Bytes) (packet : Packet)
    (ipv4 : Ipv4Header) (transport : TransportHeader) : Prop where
  judged : Packet.ofBytes packet.bytes = .ok packet
  valid : packet.isValid = true
  protocol_eq : packet.protocol = request.protocol
  ipv4_eq : packet.ipv4 = .ok ipv4
  transport_eq : packet.transportHeader = .ok (some transport)
  payload_eq : packet.payload = .ok (some payload)
  ipv4_length : ipv4.headerLength = 20 ∧ ipv4.bytes.length = 20
  transport_length : transport.headerLength = transport.protocol.minHeader ∧
    transport.bytes.length = transport.protocol.minHeader
  key_eq : ∃ key, FlowKey.ofPacket request = .ok (some key) ∧
    FlowKey.ofPacket packet = .ok (some key.reverse)
  total_eq : ipv4.totalLength.toNat = 20 + transport.protocol.minHeader + payload.length
  udp_length : ∀ h, transport = .udp h → h.length.toNat = 8 + payload.length
  tcp_fields : ∀ h, transport = .tcp h → ∃ first, request.tcp = .ok (some first) ∧
    h.sequence = lastSet TcpEdit.sequence? operations first.sequence ∧
    h.acknowledgement = lastSet TcpEdit.acknowledgement? operations first.acknowledgement ∧
    h.flags = lastSet TcpEdit.flags? operations first.flags ∧
    h.window = lastSet TcpEdit.window? operations first.window
  ipv4_verifies : Checksum.Verifies ipv4.bytes
  transport_verifies : transport.Verifies ipv4.source ipv4.destination payload

variable {r r' first : Reply} {packet request : Packet} {payload bytes : Bytes} {operation : Operation}
  {operations : List Operation} {t t' : TransportHeader} {key : FlowKey}

theorem lastSet_cons {α : Type} (pick : TcpEdit → Option α) (first : α) :
    lastSet pick (operation :: operations) first =
      lastSet pick operations ((operation.set?.bind pick).getD first) := by
  unfold lastSet
  cases found : operation.set? with
  | none => simp [found]
  | some e =>
    rw [List.filterMap_cons_some found, List.reverse_cons, List.findSome?_append]
    cases (operations.filterMap Operation.set?).reverse.findSome? pick <;> simp

/-- What the operations have made of a header: for TCP, only the fields that were set differ. -/
inductive Stands (operations : List Operation) : TransportHeader → TransportHeader → Prop where
  | tcp {h h' : TcpHeader} (fields_eq : h'.fields = { h.fields with
      sequence := lastSet TcpEdit.sequence? operations h.sequence
      acknowledgement := lastSet TcpEdit.acknowledgement? operations h.acknowledgement
      flags := lastSet TcpEdit.flags? operations h.flags
      window := lastSet TcpEdit.window? operations h.window }) : Stands operations (.tcp h) (.tcp h')
  | udp (h : UdpHeader) : Stands operations (.udp h) (.udp h)

theorem Stands.nil (t : TransportHeader) : Stands [] t t := by
  cases t with
  | tcp h => exact .tcp rfl
  | udp h => exact .udp h

theorem Stands.cons_other (other : operation.set? = none) (h : Stands operations t t') :
    Stands (operation :: operations) t t' := by
  cases h with
  | tcp fields_eq =>
    refine .tcp ?_
    simp only [lastSet_cons, other, Option.bind_none, Option.getD_none]
    exact fields_eq
  | udp header => exact .udp header

theorem Stands.cons_set {e : TcpEdit} {header : TcpHeader}
    (h : Stands operations (.tcp (e.apply header)) t') :
    Stands (.set e :: operations) (.tcp header) t' := by
  cases h with
  | tcp fields_eq =>
    have applied := e.fields_apply header
    have sequence : (e.apply header).sequence = _ := congrArg TcpHeader.Fields.sequence applied
    have acknowledgement : (e.apply header).acknowledgement = _ :=
      congrArg TcpHeader.Fields.acknowledgement applied
    have flags : (e.apply header).flags = _ := congrArg TcpHeader.Fields.flags applied
    have window : (e.apply header).window = _ := congrArg TcpHeader.Fields.window applied
    refine .tcp ?_
    rw [fields_eq, applied, sequence, acknowledgement, flags, window]
    simp only [lastSet_cons, Operation.set?, Option.bind_some]

theorem Stands.cons_udp {header : UdpHeader} (h : Stands operations (.udp header) t') :
    Stands (operation :: operations) (.udp header) t' := by
  cases h with
  | udp header => exact .udp header

theorem Stands.route_eq (h : Stands operations t t') : t'.protocol = t.protocol ∧
    t'.sourcePort = t.sourcePort ∧ t'.destinationPort = t.destinationPort := by
  cases h with
  | tcp fields_eq =>
    exact ⟨rfl, congrArg TcpHeader.Fields.sourcePort fields_eq,
      congrArg TcpHeader.Fields.destinationPort fields_eq⟩
  | udp header => exact ⟨rfl, rfl, rfl⟩

/-- A header that agrees up to its checksum has the values that were set last. -/
theorem Stands.fields_of_alike {h : TcpHeader} (stands : Stands operations t t')
    (alike : t'.Alike (.tcp h)) :
    ∃ h₀, t = .tcp h₀ ∧ h.sequence = lastSet TcpEdit.sequence? operations h₀.sequence ∧
      h.acknowledgement = lastSet TcpEdit.acknowledgement? operations h₀.acknowledgement ∧
      h.flags = lastSet TcpEdit.flags? operations h₀.flags ∧
      h.window = lastSet TcpEdit.window? operations h₀.window := by
  cases alike with
  | tcp same length =>
    cases stands with
    | @tcp h₀ h₁ set =>
      rw [set] at same
      exact ⟨h₀, rfl, congrArg TcpHeader.Fields.sequence same,
        congrArg TcpHeader.Fields.acknowledgement same, congrArg TcpHeader.Fields.flags same,
        congrArg TcpHeader.Fields.window same⟩

/-- Without other edits, operations change the fields that they set and nothing else of the headers. -/
theorem performAll_stands (fixed : ∀ e, Operation.edit e ∉ operations)
    (done : r.performAll operations = .ok r') :
    r'.ipv4 = r.ipv4 ∧ Stands operations r.transport r'.transport := by
  induction operations generalizing r with
  | nil =>
    cases done
    exact ⟨rfl, .nil _⟩
  | cons operation rest ih =>
    rw [performAll_cons, checked_bind_eq_ok] at done
    obtain ⟨middle, step, others⟩ := done
    obtain ⟨ipv4, stands⟩ := ih (fun e mem => fixed e (List.mem_cons_of_mem _ mem)) others
    rcases perform_inv step with ⟨e, rfl, rfl⟩ | ⟨e, t, rfl, -, -⟩ | ⟨other, refills⟩
    · unfold editTcp at ipv4 stands
      cases ht : r.transport with
      | tcp header =>
        simp only [ht] at ipv4 stands
        exact ⟨ipv4, stands.cons_set⟩
      | udp header =>
        simp only [ht] at ipv4 stands
        exact ⟨ipv4, stands.cons_udp⟩
    · exact absurd (List.mem_cons_self ..) (fixed e)
    · rw [refills.ipv4_eq] at ipv4
      rw [refills.transport_eq] at stands
      exact ⟨ipv4, stands.cons_other other⟩

private theorem declared_length {n : UInt16} {source destination : UInt32} {h : UdpHeader}
    (declared : t.setPayloadLength n = .ok t')
    (updated : t'.updateChecksum source destination payload = .ok (.udp h)) :
    h.length.toNat = 8 + n.toNat := by
  cases t with
  | tcp header =>
    cases declared
    simp [TransportHeader.updateChecksum] at updated
  | udp header =>
    simp only [TransportHeader.setPayloadLength, checked_map_eq_ok] at declared
    obtain ⟨header', declared, rfl⟩ := declared
    cases updated
    have room : udpHeaderLength + n.toNat < 0x10000 := by
      unfold UdpHeader.setPayloadLength at declared
      split at declared
      · next fits => exact fits
      · cases declared
    have kept : header'.clearChecksum.length = header'.length :=
      congrArg UdpHeader.Fields.length header'.fields_clearChecksum
    have set : header'.length = udpHeaderLength.toUInt16 + n :=
      congrArg UdpHeader.Fields.length (UdpHeader.fields_setPayloadLength declared).1
    rw [kept, set, UInt16.toNat_add]
    exact Nat.mod_eq_of_lt room

/-- A composed packet declares its lengths, and it verifies. -/
theorem compose_inv (hr : Plain r.ipv4 r.transport) (hc : r.compose payload = .ok packet) :
    ∃ ipv4 transport, packet.Views ipv4 transport payload ∧ Plain ipv4 transport ∧
      r.transport.Alike transport ∧ ipv4.totalLength.toNat = packet.length ∧
      (∀ h, transport = .udp h → h.length.toNat = 8 + payload.length) ∧
      Checksum.Verifies ipv4.bytes ∧
      transport.Verifies ipv4.source ipv4.destination payload := by
  simp only [compose, checked_bind_eq_ok, checked_pure_eq_ok] at hc
  obtain ⟨n, hn, total, ht, transport, hp, ipv4, hi, transport', hu, rfl⟩ := hc
  replace hn := narrow16_eq_ok_iff.1 hn
  replace ht := narrow16_eq_ok_iff.1 ht
  have alike := TransportHeader.alike_setPayloadLength hp
  have alike' := TransportHeader.alike_updateChecksum hu
  have plain := plain_setTotalLength hr total alike
  have plain' := plain_updateChecksum plain hi hu
  have length := length_headers hr
  have short : (Packet.ofParts (r.ipv4.setTotalLength total) transport payload).length ≤
      maxPacketLength := by
    rw [Packet.length_ofParts plain, alike.protocol_eq, ← length, ← ht]
    exact Nat.le_of_lt_succ total.toNat_lt
  obtain ⟨_, _, updated, updated', -, verifies, verifies'⟩ :=
    (Packet.views_ofParts plain).withChecksums_verifies short
  cases updated.symm.trans hi
  cases updated'.symm.trans hu
  refine ⟨ipv4, transport', Packet.views_ofParts plain', plain', alike.trans alike', ?_, ?_, verifies,
    verifies'⟩
  · obtain ⟨⟨checksum, fields⟩, -⟩ := Ipv4Header.fields_updateChecksum hi
    have same : ipv4.totalLength = total :=
      (congrArg Ipv4Header.Fields.totalLength fields).trans
        (congrArg Ipv4Header.Fields.totalLength (r.ipv4.fields_setTotalLength total))
    rw [same, ht, Packet.length_ofParts plain', (alike.trans alike').protocol_eq, ← length]
  · rintro h rfl
    rw [declared_length hp hu, hn]

/-- A reply starts with the values that the request has in the fields of its segment. -/
theorem tcp_of_ofRequest {ipv4 : Ipv4Header} (v : request.Views ipv4 t payload)
    (created : ofRequest request = .ok (some first)) {h : TcpHeader} (tcp : first.transport = .tcp h) :
    ∃ header, request.tcp = .ok (some header) ∧ h.sequence = header.sequence ∧
      h.acknowledgement = header.acknowledgement ∧ h.flags = header.flags ∧
      h.window = header.window := by
  obtain ⟨-, front, protocol, ⟨back, split⟩, turned⟩ := ofRequest_inv v created
  rw [tcp] at turned
  cases front with
  | udp front => cases turned
  | tcp front =>
    cases turned
    cases t with
    | udp header => cases protocol
    | tcp header =>
      have found : request.tcp = .ok (some header) := by
        rw [Packet.tcp, v.transportHeader_eq]
        rfl
      have same : header.fields = front.fields := TcpHeader.fields_eq_of_append back split
      have fields : front.swapPorts.dropOptions.fields = { header.fields with
          sourcePort := front.destinationPort
          destinationPort := front.sourcePort
          headerLength := tcpMinHeader } := by
        rw [TcpHeader.fields_dropOptions, TcpHeader.fields_swapPorts, same]
      exact ⟨header, found, congrArg TcpHeader.Fields.sequence fields,
        congrArg TcpHeader.Fields.acknowledgement fields, congrArg TcpHeader.Fields.flags fields,
        congrArg TcpHeader.Fields.window fields⟩

/-- There is a reply to exactly the packets that can be routed. -/
theorem ofRequest_eq_none_iff (parsed : Packet.ofBytes bytes = .ok request) :
    ofRequest request = .ok none ↔ request.isValid = false := by
  by_cases valid : request.isValid = true
  · obtain ⟨ipv4, transport, payload, v⟩ := Packet.views_of_ofBytes parsed valid
    simp [ofRequest, v.transportHeader_eq, ok_bind, valid]
  · have unrouted : request.transport = none := by
      simpa [Packet.isValid] using valid
    have none : request.transportHeader = .ok none := by
      rw [Packet.transportHeader, unrouted]
    rw [ofRequest, none, ok_bind]
    simp [valid]

/-- Every packet responds to the request that its reply was made for. -/
theorem responds_of_run (parsed : Packet.ofBytes bytes = .ok request)
    (created : ofRequest request = .ok (some first)) (fixed : ∀ e, Operation.edit e ∉ operations)
    (used : first.performAll operations = .ok r) (composed : r.compose payload = .ok packet) :
    ∃ ipv4 transport, Responds request operations payload packet ipv4 transport := by
  obtain ⟨-, protocol₀⟩ := plain_of_ofRequest parsed created
  obtain ⟨ipv4₀, transport₀, payload₀, v₀⟩ := views_of_ofRequest parsed created
  obtain ⟨ipv4_same, stands⟩ := performAll_stands fixed used
  obtain ⟨protocol, source, destination⟩ := stands.route_eq
  have plain : Plain r.ipv4 r.transport := by
    obtain ⟨_, created', equipped⟩ := ofRequest_isOk parsed
    cases created'.symm.trans created
    exact ((equipped first rfl).performAll used).plain
  have routed := v₀.key_eq
  have suits := suits_of_ofRequest parsed routed created
  have suits' : r.Suits _ := ⟨plain, by
    rw [← suits.key_eq, Reply.key, Reply.key, ipv4_same, protocol, source, destination]⟩
  have carries := carries_of_compose plain composed
  obtain ⟨packet', judged, -, key⟩ := (carries.answers suits').parsed
  have judged' := carries.ofBytes_eq plain
  cases judged.symm.trans judged'
  obtain ⟨ipv4, transport, v, plain', alike, total, udp, verifies, verifies'⟩ :=
    compose_inv plain composed
  refine ⟨ipv4, transport, judged', v.isValid, ?_, v.ipv4_eq, v.transportHeader_eq, v.payload_eq,
    ⟨plain'.ipv4_declared, plain'.ipv4_length⟩, ⟨plain'.transport_declared, plain'.transport_length⟩,
    ⟨_, routed, key⟩, ?_, udp, ?_, verifies, verifies'⟩
  · rw [v.protocol_eq, alike.protocol_eq, protocol, protocol₀]
  · rw [total, v.length_eq, plain'.ipv4_length, plain'.transport_length]
    rfl
  · rintro h rfl
    obtain ⟨h₀, start, set⟩ := stands.fields_of_alike alike
    obtain ⟨header, found, sequence, acknowledgement, flags, window⟩ := tcp_of_ofRequest v₀ created start
    rw [sequence, acknowledgement, flags, window] at set
    exact ⟨header, found, set⟩

/-- There is a reply to exactly the packets that can be routed, and whatever has been sent and set before,
every packet that is built next responds to the request. -/
theorem builds_respond (parsed : Packet.ofBytes bytes = .ok request) :
    ∃ found, ofRequest request = .ok found ∧ (found = none ↔ request.isValid = false) ∧
      ∀ first ∈ found, ∀ (operations : List Operation) (r : Reply) (build : Build),
        (∀ e, Operation.edit e ∉ operations) → first.performAll operations = .ok r →
        build.Admissible r → ∃ packet after ipv4 transport, build.run r = .ok (packet, after) ∧
          Responds request operations build.payload packet ipv4 transport := by
  obtain ⟨found, created, equipped⟩ := ofRequest_isOk parsed
  refine ⟨found, created, ?_, ?_⟩
  · rw [← ofRequest_eq_none_iff parsed, created, Except.ok.injEq]
  · rintro first rfl operations r build fixed used admissible
    have ready := (equipped first rfl).performAll used
    obtain ⟨packet, composed⟩ := ready.compose_isOk admissible.length_le
    obtain ⟨after, built⟩ := ready.run_eq admissible composed
    obtain ⟨ipv4, transport, responds⟩ := responds_of_run parsed created fixed used composed
    exact ⟨packet, after, ipv4, transport, built, responds⟩

/-- Of two sequence numbers the later one is sent, in a packet without options. -/
theorem builds_respond_to_segment :
    ∃ packet after first r ipv4 transport,
      ofRequest ⟨Packet.segmentWithOptions, some (.tcp, 24)⟩ = .ok (some first) ∧
      first.performAll [.set (.sequence 5), .set (.sequence 6)] = .ok r ∧
      Build.empty.run r = .ok (packet, after) ∧
      Responds ⟨Packet.segmentWithOptions, some (.tcp, 24)⟩ [.set (.sequence 5), .set (.sequence 6)] []
        packet ipv4 transport := by
  have parsed : Packet.ofBytes Packet.segmentWithOptions =
      .ok ⟨Packet.segmentWithOptions, some (.tcp, 24)⟩ := by rfl
  obtain ⟨found, created, none_iff, responds⟩ := builds_respond parsed
  cases found with
  | none => simp [Packet.isValid] at none_iff
  | some first =>
    obtain ⟨packet, after, ipv4, transport, built, response⟩ :=
      responds first rfl [.set (.sequence 5), .set (.sequence 6)] _ .empty (by simp) rfl trivial
    exact ⟨packet, after, first, _, ipv4, transport, created, rfl, built, response⟩

end TunnelRelay.Reply
