import TunnelRelay.Fault

/-!
# Bytes on the wire

Byte strings with the two operations that every header needs: reading and writing a number of two
or four bytes, most significant byte first, at a fixed offset.
-/

namespace TunnelRelay

abbrev Bytes := List UInt8

/-- The 16-bit number with the given high and low byte. -/
def word16 (hi lo : UInt8) : UInt16 := hi.toUInt16 <<< 8 ||| lo.toUInt16

def word16At (bytes : Bytes) (offset : Nat) : UInt16 :=
  word16 (bytes.getD offset 0) (bytes.getD (offset + 1) 0)

def word32At (bytes : Bytes) (offset : Nat) : UInt32 :=
  (word16At bytes offset).toUInt32 <<< 16 ||| (word16At bytes (offset + 2)).toUInt32

def bytesOf16 (n : UInt16) : Bytes := [(n >>> 8).toUInt8, n.toUInt8]

def bytesOf32 (n : UInt32) : Bytes := bytesOf16 (n >>> 16).toUInt16 ++ bytesOf16 n.toUInt16

/-- `bytes` with `new` written over it from `offset` on. -/
def overlay (bytes : Bytes) (offset : Nat) (new : Bytes) : Bytes :=
  bytes.take offset ++ new ++ bytes.drop (offset + new.length)

/-- The bytes from `start` up to but not including `stop`. -/
def slice (bytes : Bytes) (start stop : Nat) : Checked Bytes :=
  if start ≤ stop ∧ stop ≤ bytes.length then .ok ((bytes.take stop).drop start)
  else .error .outOfRange

@[simp]
theorem length_bytesOf16 (n : UInt16) : (bytesOf16 n).length = 2 := rfl

@[simp]
theorem length_bytesOf32 (n : UInt32) : (bytesOf32 n).length = 4 := rfl

theorem length_overlay {bytes new : Bytes} {offset : Nat} (h : offset + new.length ≤ bytes.length) :
    (overlay bytes offset new).length = bytes.length := by
  simp [overlay]
  omega

theorem slice_eq_ok {bytes : Bytes} {start stop : Nat} (h : start ≤ stop) (h' : stop ≤ bytes.length) :
    slice bytes start stop = .ok ((bytes.take stop).drop start) := if_pos ⟨h, h'⟩

theorem length_of_slice {bytes part : Bytes} {start stop : Nat} (h : slice bytes start stop = .ok part) :
    part.length = stop - start := by
  unfold slice at h
  split at h
  · cases h
    simp
    omega
  · cases h

end TunnelRelay
