import TunnelRelay.Proofs.Bytes
import TunnelRelay.Proofs.Fault

/-!
# Headers as tables of fields

Every field of a header has its own bits of the bytes. When each way to edit the header writes some fields
and leaves all other bits alone, the fields are independent: after any sequence of edits a field reads as it
was written last, and nothing else in the bytes has changed.
-/

namespace TunnelRelay

/-- All bits of the bytes from `offset` on, `width` of them. -/
def wholeBytes (offset width i : Nat) : UInt8 := if offset ≤ i ∧ i < offset + width then 0xff else 0

/-- Some bits of the byte at `offset`. -/
def bitsAt (offset : Nat) (bits : UInt8) (i : Nat) : UInt8 := if i = offset then bits else 0

section Masks

variable {bytes new : Bytes} {offset i : Nat} {keep part place mask : UInt8}

/-- Bits outside a place are as they were when the place is written. -/
theorem merge_and (old : UInt8) (around : place ||| keep = 0xff) (inside : part &&& place = part)
    (free : place &&& mask = 0) : (old &&& keep ||| part) &&& mask = old &&& mask := by
  have distrib (a b c : UInt8) : (a ||| b) &&& c = (a &&& c) ||| (b &&& c) :=
    UInt8.toBitVec_inj.1 BitVec.and_or_distrib_right
  have kept : keep &&& mask = mask := by
    have all := distrib place keep mask
    rw [around, free, UInt8.zero_or, show (0xff : UInt8) = -1 by rfl, UInt8.neg_one_and] at all
    exact all.symm
  have within : part &&& mask = 0 := by rw [← inside, UInt8.and_assoc, free, UInt8.and_zero]
  rw [distrib, UInt8.and_assoc, kept, within, UInt8.or_zero]

/-- Bits that the new bytes have in common with the old ones are as they were. -/
theorem getD_overlay_and (fits : offset + new.length ≤ bytes.length)
    (agree : ∀ k, k < new.length → offset + k = i → new.getD k 0 &&& mask = bytes.getD i 0 &&& mask) :
    (overlay bytes offset new).getD i 0 &&& mask = bytes.getD i 0 &&& mask := by
  rw [List.getD_eq_getElem?_getD, getElem?_overlay fits]
  split
  · next inside =>
    rw [← List.getD_eq_getElem?_getD]
    exact agree (i - offset) (by omega) (by omega)
  · rw [← List.getD_eq_getElem?_getD]

/-- Bits outside the bytes that are written are as they were. -/
theorem getD_overlay_free (fits : offset + new.length ≤ bytes.length)
    (free : wholeBytes offset new.length i &&& mask = 0) :
    (overlay bytes offset new).getD i 0 &&& mask = bytes.getD i 0 &&& mask := by
  apply getD_overlay_and fits
  intro k inside there
  rw [wholeBytes, if_pos (by omega)] at free
  have none_left : mask = 0 := by rwa [show (0xff : UInt8) = -1 by rfl, UInt8.neg_one_and] at free
  rw [none_left, UInt8.and_zero, UInt8.and_zero]

/-- Bits outside both places that are written one after the other are as they were. -/
theorem getD_overlay_twice {other : Bytes} {offset' : Nat} (fits : offset + new.length ≤ bytes.length)
    (fits' : offset' + other.length ≤ bytes.length) (free : wholeBytes offset new.length i &&& mask = 0)
    (free' : wholeBytes offset' other.length i &&& mask = 0) :
    (overlay (overlay bytes offset new) offset' other).getD i 0 &&& mask = bytes.getD i 0 &&& mask := by
  rw [getD_overlay_free (by rwa [length_overlay fits]) free', getD_overlay_free fits free]

end Masks

/-- The bytes of a kind of header as a table of fields. -/
structure Layout where
  Header : Type
  bytes : Header → Bytes
  Field : Type
  Value : Field → Type
  read : Header → (f : Field) → Value f
  /-- The bits of the byte at an offset that belong to a field. -/
  place : Field → Nat → UInt8
  Edit : Type
  apply : Edit → Header → Checked Header
  /-- What an edit writes into a field of a header, for the fields that it writes. -/
  written : Edit → (f : Field) → Option (Header → Checked (Value f))
  /-- The edit computes what it writes, and can fail to. -/
  computes : Edit → Bool

namespace Layout

variable {L : Layout}

def run (L : Layout) : List L.Edit → L.Header → Checked L.Header
  | [], h => .ok h
  | e :: rest, h => do L.run rest (← L.apply e h)

/-- The bits belong to no field that the edit writes. -/
def Spares (L : Layout) (e : L.Edit) (i : Nat) (mask : UInt8) : Prop :=
  ∀ f, L.written e f ≠ none → L.place f i &&& mask = 0

/-- A field with the value `before` has the value `after` once an edit has been applied to the header: what
the edit writes, or what it had. -/
def Becomes {Header Value : Type} (written : Option (Header → Checked Value)) (h : Header)
    (before after : Value) : Prop :=
  match written with
  | some new => new h = .ok after
  | none => after = before

/-- What one edit does. -/
structure Lawful (L : Layout) : Prop where
  isOk {e : L.Edit} (h : L.Header) (given : L.computes e = false) : ∃ h', L.apply e h = .ok h'
  reads {e : L.Edit} {h h' : L.Header} (done : L.apply e h = .ok h') (f : L.Field) :
    Becomes (L.written e f) h (L.read h f) (L.read h' f)
  length_eq {e : L.Edit} {h h' : L.Header} (done : L.apply e h = .ok h') :
    (L.bytes h').length = (L.bytes h).length
  elsewhere {e : L.Edit} {h h' : L.Header} (done : L.apply e h = .ok h') {i : Nat} {mask : UInt8}
    (spared : L.Spares e i mask) : (L.bytes h').getD i 0 &&& mask = (L.bytes h).getD i 0 &&& mask
  apart {f g : L.Field} (different : f ≠ g) (i : Nat) : L.place f i &&& L.place g i = 0

/-- What any sequence of edits does: the last edit of a field decides what it reads as, fields without one
read as before, and so do all bits that belong to no field with one. No bit belongs to two fields. -/
structure Independent (L : Layout) : Prop where
  isOk (edits : List L.Edit) (h : L.Header) (given : ∀ e ∈ edits, L.computes e = false) :
    ∃ h', L.run edits h = .ok h'
  last {before after : List L.Edit} {e : L.Edit} {h h' : L.Header}
    (done : L.run (before ++ e :: after) h = .ok h') (f : L.Field)
    {new : L.Header → Checked (L.Value f)} (set : L.written e f = some new)
    (unset : ∀ e ∈ after, L.written e f = none) :
    ∃ between, L.run before h = .ok between ∧ new between = .ok (L.read h' f)
  never {edits : List L.Edit} {h h' : L.Header} (done : L.run edits h = .ok h') (f : L.Field)
    (unset : ∀ e ∈ edits, L.written e f = none) : L.read h' f = L.read h f
  length_eq {edits : List L.Edit} {h h' : L.Header} (done : L.run edits h = .ok h') :
    (L.bytes h').length = (L.bytes h).length
  elsewhere {edits : List L.Edit} {h h' : L.Header} (done : L.run edits h = .ok h') {i : Nat}
    {mask : UInt8} (spared : ∀ e ∈ edits, L.Spares e i mask) :
    (L.bytes h').getD i 0 &&& mask = (L.bytes h).getD i 0 &&& mask
  apart {f g : L.Field} (different : f ≠ g) (i : Nat) : L.place f i &&& L.place g i = 0

theorem run_append (before after : List L.Edit) (h : L.Header) :
    L.run (before ++ after) h = L.run before h >>= L.run after := by
  induction before generalizing h with
  | nil => rfl
  | cons e rest ih => simp only [List.cons_append, run, bind_assoc, ih]

theorem run_cons_eq_ok {e : L.Edit} {rest : List L.Edit} {h h' : L.Header} :
    L.run (e :: rest) h = .ok h' ↔ ∃ first, L.apply e h = .ok first ∧ L.run rest first = .ok h' := by
  rw [run, checked_bind_eq_ok]

/-- What every edit leaves as it was, a sequence of edits leaves as it was. -/
theorem run_keeps {α : Type} {edits : List L.Edit} {h h' : L.Header} (view : L.Header → α)
    (keeps : ∀ e ∈ edits, ∀ first second, L.apply e first = .ok second → view second = view first)
    (done : L.run edits h = .ok h') : view h' = view h := by
  induction edits generalizing h with
  | nil =>
    cases done
    rfl
  | cons e rest ih =>
    obtain ⟨first, applied, continued⟩ := run_cons_eq_ok.1 done
    have later := ih (fun e' member => keeps e' (List.mem_cons_of_mem e member)) continued
    rw [later, keeps e List.mem_cons_self h first applied]

namespace Lawful

variable {edits before after : List L.Edit} {e : L.Edit} {h h' : L.Header}

theorem run_isOk (laws : L.Lawful) (edits : List L.Edit) (h : L.Header)
    (given : ∀ e ∈ edits, L.computes e = false) : ∃ h', L.run edits h = .ok h' := by
  induction edits generalizing h with
  | nil => exact ⟨h, rfl⟩
  | cons e rest ih =>
    obtain ⟨first, applied⟩ := laws.isOk h (given e List.mem_cons_self)
    obtain ⟨h', continued⟩ := ih first fun e' member => given e' (List.mem_cons_of_mem e member)
    exact ⟨h', run_cons_eq_ok.2 ⟨first, applied, continued⟩⟩

theorem writes (laws : L.Lawful) (done : L.apply e h = .ok h') (f : L.Field)
    {new : L.Header → Checked (L.Value f)} (set : L.written e f = some new) :
    new h = .ok (L.read h' f) := by
  have made := laws.reads done f
  rw [set] at made
  exact made

theorem keeps (laws : L.Lawful) (done : L.apply e h = .ok h') (f : L.Field)
    (unset : L.written e f = none) : L.read h' f = L.read h f := by
  have made := laws.reads done f
  rw [unset] at made
  exact made

theorem read_of_never (laws : L.Lawful) (done : L.run edits h = .ok h') (f : L.Field)
    (unset : ∀ e ∈ edits, L.written e f = none) : L.read h' f = L.read h f :=
  run_keeps (L.read · f) (fun e member _ _ applied => laws.keeps applied f (unset e member)) done

theorem read_of_last (laws : L.Lawful) (done : L.run (before ++ e :: after) h = .ok h') (f : L.Field)
    {new : L.Header → Checked (L.Value f)} (set : L.written e f = some new)
    (unset : ∀ e ∈ after, L.written e f = none) :
    ∃ between, L.run before h = .ok between ∧ new between = .ok (L.read h' f) := by
  rw [run_append] at done
  obtain ⟨between, earlier, rest⟩ := checked_bind_eq_ok.1 done
  obtain ⟨edited, applied, later⟩ := run_cons_eq_ok.1 rest
  refine ⟨between, earlier, ?_⟩
  rw [laws.read_of_never later f unset]
  exact laws.writes applied f set

theorem run_elsewhere (laws : L.Lawful) (done : L.run edits h = .ok h') {i : Nat} {mask : UInt8}
    (spared : ∀ e ∈ edits, L.Spares e i mask) :
    (L.bytes h').getD i 0 &&& mask = (L.bytes h).getD i 0 &&& mask :=
  run_keeps (fun h => (L.bytes h).getD i 0 &&& mask)
    (fun e member _ _ applied => laws.elsewhere applied (spared e member)) done

/-- Edits that keep to the places of their fields make the fields independent. -/
theorem independent (laws : L.Lawful) : L.Independent where
  isOk := laws.run_isOk
  last := laws.read_of_last
  never := laws.read_of_never
  length_eq := run_keeps (fun h => (L.bytes h).length) fun _ _ _ _ applied => laws.length_eq applied
  elsewhere := laws.run_elsewhere
  apart := laws.apart

end Lawful

/-- Bytes in which no field has a place stay as they were. -/
theorem Independent.drop_eq (laws : L.Independent) {edits : List L.Edit} {h h' : L.Header} {size : Nat}
    (done : L.run edits h = .ok h') (ends : ∀ f i, size ≤ i → L.place f i = 0) :
    (L.bytes h').drop size = (L.bytes h).drop size := by
  apply List.ext_getElem
  · rw [List.length_drop, List.length_drop, laws.length_eq done]
  · intro k inside inside'
    have spared : ∀ e ∈ edits, L.Spares e (size + k) (-1) := by
      intro e _ f _
      rw [ends f _ (Nat.le_add_right ..), UInt8.zero_and]
    have same := laws.elsewhere done spared
    rw [UInt8.and_neg_one, UInt8.and_neg_one] at same
    rw [List.length_drop] at inside inside'
    rw [List.getElem_drop, List.getElem_drop]
    rwa [List.getD_eq_getElem?_getD, List.getD_eq_getElem?_getD, List.getElem?_eq_getElem (by omega),
      List.getElem?_eq_getElem (by omega)] at same

end Layout

end TunnelRelay
