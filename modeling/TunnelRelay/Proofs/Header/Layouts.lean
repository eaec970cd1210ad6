import TunnelRelay.Proofs.Header.Layout
import TunnelRelay.Proofs.Header.Recheck

/-!
# The fields of the three headers

IPv4, TCP and UDP headers as tables of fields, and what each way to edit them does. Where fields share a byte,
as version and length of an IPv4 header do and flags and data offset of a TCP header, each keeps to its own
bits.
-/

namespace TunnelRelay

namespace Ipv4Header

inductive Field where
  | version
  | headerLength
  | totalLength
  | protocol
  | checksum
  | source
  | destination
  deriving DecidableEq

namespace Field

def Value : Field → Type
  | version | protocol => UInt8
  | headerLength => Nat
  | totalLength | checksum => UInt16
  | source | destination => UInt32

def place : Field → Nat → UInt8
  | version => bitsAt 0 0xf0
  | headerLength => bitsAt 0 0x0f
  | totalLength => wholeBytes 2 2
  | protocol => wholeBytes 9 1
  | checksum => wholeBytes 10 2
  | source => wholeBytes 12 4
  | destination => wholeBytes 16 4

end Field

def Fields.get (v : Fields) : (f : Field) → f.Value
  | .version => v.version
  | .headerLength => v.headerLength
  | .totalLength => v.totalLength
  | .protocol => v.protocol
  | .checksum => v.checksum
  | .source => v.source
  | .destination => v.destination

inductive Edit where
  | headerLength (n : Nat) (inRange : n % 4 = 0 ∧ n ≤ 60)
  | totalLength (n : UInt16)
  | source (address : UInt32)
  | destination (address : UInt32)
  | swapAddresses
  | updateChecksum

namespace Edit

def apply : Edit → Ipv4Header → Checked Ipv4Header
  | headerLength n _, h => h.setHeaderLength n
  | totalLength n, h => .ok (h.setTotalLength n)
  | source address, h => .ok (h.setSource address)
  | destination address, h => .ok (h.setDestination address)
  | swapAddresses, h => .ok h.swapAddresses
  | updateChecksum, h => h.updateChecksum

def written : Edit → (f : Field) → Option (Ipv4Header → Checked f.Value)
  | headerLength n _, .headerLength => some fun _ => .ok n
  | totalLength n, .totalLength => some fun _ => .ok n
  | source address, .source => some fun _ => .ok address
  | destination address, .destination => some fun _ => .ok address
  | swapAddresses, .source => some fun h => .ok h.destination
  | swapAddresses, .destination => some fun h => .ok h.source
  | updateChecksum, .checksum => some expectedChecksum
  | _, _ => none

def computes : Edit → Bool
  | updateChecksum => true
  | _ => false

end Edit

def layout : Layout where
  Header := Ipv4Header
  bytes := bytes
  Field := Field
  Value := Field.Value
  read h := h.fields.get
  place := Field.place
  Edit := Edit
  apply := Edit.apply
  written := Edit.written
  computes := Edit.computes

variable {h h' : Ipv4Header} {e : Edit}

theorem setHeaderLength_eq {n : Nat} (inRange : n % 4 = 0 ∧ n ≤ 60) :
    h.setHeaderLength n = .ok (h.write 0 [(h.bytes.getD 0 0 &&& 0xf0) ||| (n / 4).toUInt8]
      (Nat.le_of_ble_eq_true rfl)) := if_pos inRange

/-- What an edit makes of a field. -/
theorem get_apply (done : e.apply h = .ok h') (f : Field) :
    Layout.Becomes (e.written f) h (h.fields.get f) (h'.fields.get f) := by
  cases e with
  | headerLength n inRange =>
    obtain ⟨fields_eq, -⟩ := fields_setHeaderLength done
    rw [fields_eq]
    cases f <;> rfl
  | totalLength n =>
    cases done
    rw [fields_setTotalLength]
    cases f <;> rfl
  | source address =>
    cases done
    rw [fields_setSource]
    cases f <;> rfl
  | destination address =>
    cases done
    rw [fields_setDestination]
    cases f <;> rfl
  | swapAddresses =>
    cases done
    rw [fields_swapAddresses]
    cases f <;> simp only [Layout.Becomes, Edit.written, Fields.get] <;> rfl
  | updateChecksum =>
    rw [Edit.apply, updateChecksum_eq] at done
    obtain ⟨checksum, computed, rfl⟩ := checked_map_eq_ok.1 done
    rw [fields_setChecksum]
    cases f with
    | checksum => exact computed
    | _ => rfl

theorem length_apply (done : e.apply h = .ok h') : h'.bytes.length = h.bytes.length := by
  cases e with
  | headerLength n inRange => exact (fields_setHeaderLength done).2
  | totalLength n =>
    cases done
    exact length_write ..
  | source address =>
    cases done
    exact h.length_setSource address
  | destination address =>
    cases done
    exact h.length_setDestination address
  | swapAddresses =>
    cases done
    exact h.length_swapAddresses
  | updateChecksum => exact (fields_updateChecksum done).2

private theorem nibble_inside {n : Nat} (small : n ≤ 60) :
    (n / 4).toUInt8 &&& (0x0f : UInt8) = (n / 4).toUInt8 := by
  apply UInt8.toNat_inj.1
  rw [UInt8.toNat_and, show (0x0f : UInt8).toNat = 2 ^ 4 - 1 by rfl, Nat.and_two_pow_sub_one_eq_mod]
  have same := UInt8.toNat_ofNat_of_lt' (show n / 4 < UInt8.size by change _ < 256; omega)
  change (UInt8.ofNat (n / 4)).toNat % _ = (UInt8.ofNat (n / 4)).toNat
  omega

theorem apply_elsewhere (done : e.apply h = .ok h') {i : Nat} {mask : UInt8}
    (spared : layout.Spares e i mask) :
    h'.bytes.getD i 0 &&& mask = h.bytes.getD i 0 &&& mask := by
  have complete : 20 ≤ h.bytes.length := h.complete
  cases e with
  | headerLength n inRange =>
    rw [Edit.apply, setHeaderLength_eq inRange] at done
    cases done
    apply getD_overlay_and (by simp; omega)
    intro k inside there
    obtain rfl : k = 0 := by simpa using inside
    obtain rfl : 0 = i := there
    have free : (0x0f : UInt8) &&& mask = 0 := spared .headerLength nofun
    exact merge_and (h.bytes.getD 0 0) (by decide) (nibble_inside inRange.2) free
  | totalLength n =>
    cases done
    exact getD_overlay_free (by simp; omega) (spared .totalLength nofun)
  | source address =>
    cases done
    exact getD_overlay_free (by simp; omega) (spared .source nofun)
  | destination address =>
    cases done
    exact getD_overlay_free (by simp; omega) (spared .destination nofun)
  | swapAddresses =>
    cases done
    exact getD_overlay_twice (by simp; omega) (by simp; omega) (spared .source nofun)
      (spared .destination nofun)
  | updateChecksum =>
    rw [Edit.apply, updateChecksum_eq] at done
    obtain ⟨checksum, computed, rfl⟩ := checked_map_eq_ok.1 done
    exact getD_overlay_free (by simp; omega) (spared .checksum nofun)

theorem lawful : layout.Lawful where
  isOk {e} h given := by
    cases e with
    | headerLength n inRange => exact ⟨_, setHeaderLength_eq inRange⟩
    | updateChecksum => cases given
    | _ => exact ⟨_, rfl⟩
  reads := get_apply
  length_eq := length_apply
  elsewhere := apply_elsewhere
  apart {f g} different i := by
    cases f <;> cases g <;>
      first
      | exact absurd rfl different
      | simp only [layout, Field.place, wholeBytes, bitsAt]
        repeat' split
        all_goals first | rfl | omega

end Ipv4Header

namespace TcpHeader

inductive Field where
  | sourcePort
  | destinationPort
  | sequence
  | acknowledgement
  | headerLength
  | flags
  | window
  | checksum
  deriving DecidableEq

namespace Field

def Value : Field → Type
  | sourcePort | destinationPort | window | checksum => UInt16
  | sequence | acknowledgement => UInt32
  | headerLength => Nat
  | flags => TcpFlags

/-- Byte 12 is shared by the data offset and the highest flag, and three bits of it belong to neither. -/
def place : Field → Nat → UInt8
  | sourcePort => wholeBytes 0 2
  | destinationPort => wholeBytes 2 2
  | sequence => wholeBytes 4 4
  | acknowledgement => wholeBytes 8 4
  | headerLength => bitsAt 12 0xf0
  | flags => fun i => bitsAt 12 0x01 i ||| wholeBytes 13 1 i
  | window => wholeBytes 14 2
  | checksum => wholeBytes 16 2

end Field

def Fields.get (v : Fields) : (f : Field) → f.Value
  | .sourcePort => v.sourcePort
  | .destinationPort => v.destinationPort
  | .sequence => v.sequence
  | .acknowledgement => v.acknowledgement
  | .headerLength => v.headerLength
  | .flags => v.flags
  | .window => v.window
  | .checksum => v.checksum

inductive Edit where
  | sourcePort (port : UInt16)
  | destinationPort (port : UInt16)
  | swapPorts
  | sequence (n : UInt32)
  | acknowledgement (n : UInt32)
  | flags (flags : TcpFlags) (known : TcpFlags.ofBits flags.bits = flags)
  | window (n : UInt16)
  | dropOptions
  | updateChecksum (source destination : UInt32) (payload : Bytes)

namespace Edit

def apply : Edit → TcpHeader → Checked TcpHeader
  | sourcePort port, h => .ok (h.setSourcePort port)
  | destinationPort port, h => .ok (h.setDestinationPort port)
  | swapPorts, h => .ok h.swapPorts
  | sequence n, h => .ok (h.setSequence n)
  | acknowledgement n, h => .ok (h.setAcknowledgement n)
  | flags f _, h => .ok (h.setFlags f)
  | window n, h => .ok (h.setWindow n)
  | dropOptions, h => .ok h.dropOptions
  | updateChecksum source destination payload, h => h.updateChecksum source destination payload

def written : Edit → (f : Field) → Option (TcpHeader → Checked f.Value)
  | sourcePort port, .sourcePort => some fun _ => .ok port
  | destinationPort port, .destinationPort => some fun _ => .ok port
  | swapPorts, .sourcePort => some fun h => .ok h.destinationPort
  | swapPorts, .destinationPort => some fun h => .ok h.sourcePort
  | sequence n, .sequence => some fun _ => .ok n
  | acknowledgement n, .acknowledgement => some fun _ => .ok n
  | flags f _, .flags => some fun _ => .ok f
  | window n, .window => some fun _ => .ok n
  | dropOptions, .headerLength => some fun _ => .ok tcpMinHeader
  | updateChecksum source destination payload, .checksum =>
    some fun h => h.expectedChecksum source destination payload
  | _, _ => none

def computes : Edit → Bool
  | updateChecksum .. => true
  | _ => false

end Edit

def layout : Layout where
  Header := TcpHeader
  bytes := bytes
  Field := Field
  Value := Field.Value
  read h := h.fields.get
  place := Field.place
  Edit := Edit
  apply := Edit.apply
  written := Edit.written
  computes := Edit.computes

variable {h h' : TcpHeader} {e : Edit}

/-- What an edit makes of a field. -/
theorem get_apply (done : e.apply h = .ok h') (f : Field) :
    Layout.Becomes (e.written f) h (h.fields.get f) (h'.fields.get f) := by
  cases e with
  | sourcePort port =>
    cases done
    rw [fields_setSourcePort]
    cases f <;> rfl
  | destinationPort port =>
    cases done
    rw [fields_setDestinationPort]
    cases f <;> rfl
  | swapPorts =>
    cases done
    rw [fields_swapPorts]
    cases f <;> simp only [Layout.Becomes, Edit.written, Fields.get] <;> rfl
  | sequence n =>
    cases done
    rw [fields_setSequence]
    cases f <;> rfl
  | acknowledgement n =>
    cases done
    rw [fields_setAcknowledgement]
    cases f <;> rfl
  | flags flags known =>
    cases done
    rw [fields_setFlags, known]
    cases f <;> rfl
  | window n =>
    cases done
    rw [fields_setWindow]
    cases f <;> rfl
  | dropOptions =>
    cases done
    rw [fields_dropOptions]
    cases f <;> rfl
  | updateChecksum source destination payload =>
    rw [Edit.apply, updateChecksum_eq_map] at done
    obtain ⟨checksum, computed, rfl⟩ := checked_map_eq_ok.1 done
    rw [fields_setChecksum]
    cases f with
    | checksum => exact computed
    | _ => rfl

theorem length_apply (done : e.apply h = .ok h') : h'.bytes.length = h.bytes.length := by
  cases e with
  | swapPorts =>
    cases done
    exact h.length_swapPorts
  | flags flags known =>
    cases done
    exact h.length_setFlags flags
  | updateChecksum source destination payload => exact (fields_updateChecksum done).2
  | _ =>
    cases done
    exact length_write ..

private theorem setFlags_elsewhere {flags : TcpFlags} {i : Nat} {mask : UInt8}
    (free : (bitsAt 12 0x01 i ||| wholeBytes 13 1 i) &&& mask = 0) :
    (h.setFlags flags).bytes.getD i 0 &&& mask = h.bytes.getD i 0 &&& mask := by
  have complete : 20 ≤ h.bytes.length := h.complete
  apply getD_overlay_and (by simp; omega)
  intro k inside there
  have cases_k : k = 0 ∨ k = 1 := by
    simp at inside
    omega
  rcases cases_k with rfl | rfl
  · obtain rfl : 12 = i := there
    have free' : (0x01 : UInt8) &&& mask = 0 := free
    exact merge_and (h.bytes.getD 12 0) (by decide) (by rw [UInt8.and_assoc]; rfl) free'
  · obtain rfl : 13 = i := there
    have free' : (-1 : UInt8) &&& mask = 0 := free
    rw [UInt8.neg_one_and] at free'
    rw [free', UInt8.and_zero, UInt8.and_zero]

private theorem dropOptions_elsewhere {i : Nat} {mask : UInt8} (free : bitsAt 12 0xf0 i &&& mask = 0) :
    h.dropOptions.bytes.getD i 0 &&& mask = h.bytes.getD i 0 &&& mask := by
  have complete : 20 ≤ h.bytes.length := h.complete
  apply getD_overlay_and (by simp; omega)
  intro k inside there
  obtain rfl : k = 0 := by simpa using inside
  obtain rfl : 12 = i := there
  have free' : (0xf0 : UInt8) &&& mask = 0 := free
  exact merge_and (h.bytes.getD 12 0) (by decide) (by decide) free'

theorem apply_elsewhere (done : e.apply h = .ok h') {i : Nat} {mask : UInt8}
    (spared : layout.Spares e i mask) :
    h'.bytes.getD i 0 &&& mask = h.bytes.getD i 0 &&& mask := by
  have complete : 20 ≤ h.bytes.length := h.complete
  cases e with
  | sourcePort port =>
    cases done
    exact getD_overlay_free (by simp; omega) (spared .sourcePort nofun)
  | destinationPort port =>
    cases done
    exact getD_overlay_free (by simp; omega) (spared .destinationPort nofun)
  | swapPorts =>
    cases done
    exact getD_overlay_twice (by simp; omega) (by simp; omega) (spared .sourcePort nofun)
      (spared .destinationPort nofun)
  | sequence n =>
    cases done
    exact getD_overlay_free (by simp; omega) (spared .sequence nofun)
  | acknowledgement n =>
    cases done
    exact getD_overlay_free (by simp; omega) (spared .acknowledgement nofun)
  | flags flags known =>
    cases done
    exact setFlags_elsewhere (spared .flags nofun)
  | window n =>
    cases done
    exact getD_overlay_free (by simp; omega) (spared .window nofun)
  | dropOptions =>
    cases done
    exact dropOptions_elsewhere (spared .headerLength nofun)
  | updateChecksum source destination payload =>
    rw [Edit.apply, updateChecksum_eq_map] at done
    obtain ⟨checksum, computed, rfl⟩ := checked_map_eq_ok.1 done
    exact getD_overlay_free (by simp; omega) (spared .checksum nofun)

theorem lawful : layout.Lawful where
  isOk {e} h given := by
    cases e with
    | updateChecksum source destination payload => cases given
    | _ => exact ⟨_, rfl⟩
  reads := get_apply
  length_eq := length_apply
  elsewhere := apply_elsewhere
  apart {f g} different i := by
    cases f <;> cases g <;>
      first
      | exact absurd rfl different
      | simp only [layout, Field.place, wholeBytes, bitsAt]
        repeat' split
        all_goals first | rfl | omega

end TcpHeader

namespace UdpHeader

inductive Field where
  | sourcePort
  | destinationPort
  | length
  | checksum
  deriving DecidableEq

def Field.place : Field → Nat → UInt8
  | sourcePort => wholeBytes 0 2
  | destinationPort => wholeBytes 2 2
  | length => wholeBytes 4 2
  | checksum => wholeBytes 6 2

def Fields.get (v : Fields) : Field → UInt16
  | .sourcePort => v.sourcePort
  | .destinationPort => v.destinationPort
  | .length => v.length
  | .checksum => v.checksum

inductive Edit where
  | sourcePort (port : UInt16)
  | destinationPort (port : UInt16)
  | swapPorts
  | payloadLength (n : UInt16) (inRange : udpHeaderLength + n.toNat < 0x10000)
  | clearChecksum

namespace Edit

def apply : Edit → UdpHeader → Checked UdpHeader
  | sourcePort port, h => .ok (h.setSourcePort port)
  | destinationPort port, h => .ok (h.setDestinationPort port)
  | swapPorts, h => .ok h.swapPorts
  | payloadLength n _, h => h.setPayloadLength n
  | clearChecksum, h => .ok h.clearChecksum

def written : Edit → Field → Option (UdpHeader → Checked UInt16)
  | sourcePort port, .sourcePort => some fun _ => .ok port
  | destinationPort port, .destinationPort => some fun _ => .ok port
  | swapPorts, .sourcePort => some fun h => .ok h.destinationPort
  | swapPorts, .destinationPort => some fun h => .ok h.sourcePort
  | payloadLength n _, .length => some fun _ => .ok (udpHeaderLength.toUInt16 + n)
  | clearChecksum, .checksum => some fun _ => .ok 0
  | _, _ => none

end Edit

def layout : Layout where
  Header := UdpHeader
  bytes := bytes
  Field := Field
  Value _ := UInt16
  read h := h.fields.get
  place := Field.place
  Edit := Edit
  apply := Edit.apply
  written := Edit.written
  computes _ := false

variable {h h' : UdpHeader} {e : Edit}

theorem setPayloadLength_eq {n : UInt16} (inRange : udpHeaderLength + n.toNat < 0x10000) :
    h.setPayloadLength n = .ok (h.write 4 (bytesOf16 (udpHeaderLength.toUInt16 + n))
      (Nat.le_of_ble_eq_true rfl)) := if_pos inRange

/-- What an edit makes of a field. -/
theorem get_apply (done : e.apply h = .ok h') (f : Field) :
    Layout.Becomes (e.written f) h (h.fields.get f) (h'.fields.get f) := by
  cases e with
  | sourcePort port =>
    cases done
    rw [fields_setSourcePort]
    cases f <;> rfl
  | destinationPort port =>
    cases done
    rw [fields_setDestinationPort]
    cases f <;> rfl
  | swapPorts =>
    cases done
    rw [fields_swapPorts]
    cases f <;> simp only [Layout.Becomes, Edit.written, Fields.get]
  | payloadLength n inRange =>
    obtain ⟨fields_eq, -⟩ := fields_setPayloadLength done
    rw [fields_eq]
    cases f <;> rfl
  | clearChecksum =>
    cases done
    rw [fields_clearChecksum]
    cases f <;> rfl

theorem length_apply (done : e.apply h = .ok h') : h'.bytes.length = h.bytes.length := by
  cases e with
  | swapPorts =>
    cases done
    exact h.length_swapPorts
  | payloadLength n inRange => exact (fields_setPayloadLength done).2
  | _ =>
    cases done
    exact length_write ..

theorem apply_elsewhere (done : e.apply h = .ok h') {i : Nat} {mask : UInt8}
    (spared : layout.Spares e i mask) :
    h'.bytes.getD i 0 &&& mask = h.bytes.getD i 0 &&& mask := by
  have complete : 8 ≤ h.bytes.length := h.complete
  cases e with
  | sourcePort port =>
    cases done
    exact getD_overlay_free (by simp; omega) (spared .sourcePort nofun)
  | destinationPort port =>
    cases done
    exact getD_overlay_free (by simp; omega) (spared .destinationPort nofun)
  | swapPorts =>
    cases done
    exact getD_overlay_twice (by simp; omega) (by simp; omega) (spared .sourcePort nofun)
      (spared .destinationPort nofun)
  | payloadLength n inRange =>
    rw [Edit.apply, setPayloadLength_eq inRange] at done
    cases done
    exact getD_overlay_free (by simp; omega) (spared .length nofun)
  | clearChecksum =>
    cases done
    exact getD_overlay_free (by simp; omega) (spared .checksum nofun)

theorem lawful : layout.Lawful where
  isOk {e} h given := by
    cases e with
    | payloadLength n inRange => exact ⟨_, setPayloadLength_eq inRange⟩
    | _ => exact ⟨_, rfl⟩
  reads := get_apply
  length_eq := length_apply
  elsewhere := apply_elsewhere
  apart {f g} different i := by
    cases f <;> cases g <;>
      first
      | exact absurd rfl different
      | simp only [layout, Field.place, wholeBytes]
        repeat' split
        all_goals first | rfl | omega

end UdpHeader

end TunnelRelay
