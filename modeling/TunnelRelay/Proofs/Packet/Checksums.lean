import TunnelRelay.Proofs.Header.Recheck
import TunnelRelay.Proofs.Packet.Parsing

/-!
# Bringing the checksums of a packet up to date

New checksums make a packet verify, whatever stood in their places before, and nothing beside these places
changes. Computing them again changes nothing at all.
-/

namespace TunnelRelay

open Checksum

namespace Packet

/-- The places of both checksums in a packet whose transport header starts at an offset. -/
def checksumPlaces (start : Nat) (protocol : Protocol) : List Nat :=
  [10, 11, start + protocol.checksumAt, start + protocol.checksumAt + 1]

/-- The packet `p'` is `p` with checksums that verify: of the IPv4 header by itself, of a TCP segment behind
its pseudo-header, and none for UDP. The transport header starts at `start`. -/
structure Rechecked (p p' : Packet) (start : Nat) (protocol : Protocol) (source destination : UInt32) :
    Prop where
  transport_eq : p'.transport = p.transport
  length_eq : p'.length = p.length
  elsewhere : ∀ i, i ∉ checksumPlaces start protocol → p'.bytes[i]? = p.bytes[i]?
  header : Verifies (p'.bytes.take start)
  segment : protocol = .tcp →
    SegmentVerifies source destination (p.length - start).toUInt16 (p'.bytes.drop start)
  blank : protocol = .udp → word16At p'.bytes (start + 6) = 0
  settled : p'.withChecksums = .ok p'

namespace Views

variable {p : Packet} {ipv4 ipv4' : Ipv4Header} {transport transport' : TransportHeader} {payload : Bytes}

/-- Both checksums are written into their places in the packet. -/
theorem bytes_updated (v : p.Views ipv4 transport payload) (outer : ipv4.updateChecksum = .ok ipv4')
    (inner : transport.updateChecksum ipv4'.source ipv4'.destination payload = .ok transport') :
    ∃ first second, ipv4'.bytes ++ transport'.bytes ++ payload =
      overlay (overlay p.bytes 10 (bytesOf16 first))
        (ipv4.bytes.length + transport.protocol.checksumAt) (bytesOf16 second) := by
  have complete : 20 ≤ ipv4.bytes.length := ipv4.complete
  obtain ⟨first, header_eq⟩ : ∃ first, ipv4'.bytes = overlay ipv4.bytes 10 (bytesOf16 first) := by
    rw [Ipv4Header.updateChecksum_eq] at outer
    obtain ⟨first, -, rfl⟩ := checked_map_eq_ok.1 outer
    exact ⟨first, rfl⟩
  obtain ⟨second, transport_eq⟩ := TransportHeader.updateChecksum_inv inner
  obtain ⟨-, length_eq⟩ := Ipv4Header.fields_updateChecksum outer
  have front : overlay p.bytes 10 (bytesOf16 first) = ipv4'.bytes ++ transport.bytes ++ payload := by
    have inside : 10 + (bytesOf16 first).length ≤ ipv4.bytes.length := by
      rw [length_bytesOf16]
      omega
    have written : overlay ([] ++ ipv4.bytes ++ (transport.bytes ++ payload)) (0 + 10) (bytesOf16 first) =
        [] ++ overlay ipv4.bytes 10 (bytesOf16 first) ++ (transport.bytes ++ payload) :=
      overlay_append_middle inside
    rw [v.bytes_eq, header_eq]
    simpa using written
  refine ⟨first, second, ?_⟩
  rw [front, ← length_eq, overlay_append_middle transport.checksumAt_le, transport_eq]

theorem withChecksums_rechecked (v : p.Views ipv4 transport payload) (short : p.length ≤ maxPacketLength) :
    ∃ p', p.withChecksums = .ok p' ∧
      p.Rechecked p' ipv4.bytes.length transport.protocol ipv4.source ipv4.destination := by
  obtain ⟨ipv4', transport', outer, inner, done, header, segment⟩ := v.withChecksums_verifies short
  obtain ⟨⟨_, fields_eq⟩, length_eq⟩ := Ipv4Header.fields_updateChecksum outer
  have source_eq : ipv4'.source = ipv4.source := congrArg Ipv4Header.Fields.source fields_eq
  have destination_eq : ipv4'.destination = ipv4.destination :=
    congrArg Ipv4Header.Fields.destination fields_eq
  have alike := TransportHeader.alike_updateChecksum inner
  have v' := v.updated outer inner
  have complete : 20 ≤ ipv4.bytes.length := ipv4.complete
  have room := transport.checksumAt_le
  have long := v.length_eq
  refine ⟨_, done, rfl, ?_, ?_, ?_, ?_, ?_, ?_⟩
  · rw [v'.length_eq, length_eq, alike.length_eq, long]
  · intro i apart
    obtain ⟨first, second, written⟩ := v.bytes_updated outer inner
    simp only [checksumPlaces, List.mem_cons, List.not_mem_nil, or_false, not_or] at apart
    have inside : 10 + (bytesOf16 first).length ≤ p.bytes.length := by
      rw [length_bytesOf16]
      change _ ≤ p.length
      omega
    have inside' : ipv4.bytes.length + transport.protocol.checksumAt + (bytesOf16 second).length ≤
        (overlay p.bytes 10 (bytesOf16 first)).length := by
      rw [length_overlay inside, length_bytesOf16]
      change _ ≤ p.length
      omega
    change (ipv4'.bytes ++ transport'.bytes ++ payload)[i]? = _
    rw [written, getElem?_overlay inside', if_neg (by rw [length_bytesOf16]; omega),
      getElem?_overlay inside, if_neg (by rw [length_bytesOf16]; omega)]
  · rw [List.append_assoc, ← length_eq, List.take_left]
    exact header
  · intro tcp
    have rest : p.length - ipv4.bytes.length = transport'.bytes.length + payload.length := by
      rw [alike.length_eq]
      omega
    have behind : (ipv4'.bytes ++ transport'.bytes ++ payload).drop ipv4.bytes.length =
        transport'.bytes ++ payload := by
      rw [List.append_assoc, ← length_eq, List.drop_left]
    have made := segment.segment (alike.protocol_eq.trans tcp) (by omega)
    rwa [source_eq, destination_eq, ← rest, ← behind] at made
  · intro udp
    have empty := segment.blank (alike.protocol_eq.trans udp) ipv4'.bytes
    rwa [length_eq] at empty
  · rw [v'.withChecksums_eq, Ipv4Header.updateChecksum_again v.ipv4_whole outer, ok_bind,
      TransportHeader.updateChecksum_again inner]
    rfl

end Views

variable {bytes : Bytes} {p : Packet}

/-- Bringing the checksums of a valid packet up to date never overflows. It makes the packet verify, changes
no byte beside the checksums, and done again changes nothing. -/
theorem checksums_exact (parsed : ofBytes bytes = .ok p) (valid : p.isValid = true) :
    ∃ start protocol length ipv4 p', p.ipv4Length = .ok start ∧ p.transport = some (protocol, length) ∧
      p.ipv4 = .ok ipv4 ∧ p.withChecksums = .ok p' ∧
      p.Rechecked p' start protocol ipv4.source ipv4.destination := by
  obtain ⟨ipv4, transport, payload, views⟩ := views_of_ofBytes parsed valid
  obtain ⟨p', done, rechecked⟩ := views.withChecksums_rechecked (judged_of_ofBytes parsed).length_le
  exact ⟨_, _, _, ipv4, p', views.ipv4Length_eq, views.routed, views.ipv4_eq, done, rechecked⟩

/-- The packet of `segmentWithOptions`, with options in both headers. -/
def packetWithOptions : Packet := ⟨segmentWithOptions, some (.tcp, 24)⟩

theorem checksums_exact_segmentWithOptions :
    ofBytes segmentWithOptions = .ok packetWithOptions ∧ packetWithOptions.isValid = true ∧
      ∃ ipv4 p', packetWithOptions.ipv4 = .ok ipv4 ∧ packetWithOptions.withChecksums = .ok p' ∧
        packetWithOptions.Rechecked p' 24 .tcp ipv4.source ipv4.destination := by
  have parsed : ofBytes segmentWithOptions = .ok packetWithOptions := rfl
  have start : packetWithOptions.ipv4Length = .ok 24 := rfl
  obtain ⟨_, _, _, ipv4, p', start', routed, header, done, rechecked⟩ := checksums_exact parsed rfl
  cases start.symm.trans start'
  cases routed
  exact ⟨parsed, rfl, ipv4, p', header, done, rechecked⟩

end Packet

end TunnelRelay
