import SuperChip.Fault
import SuperChip.Glyphs

/-!
# Memory

Memory is a row of bytes.  The glyphs fill its start and are never written; all
bytes behind them are zero at first.

A *slice* is a run of consecutive bytes, given by an address and a length.  It
is *readable* when it ends within memory.  It is *writable* when moreover it
does not start among the glyphs; a slice of length zero holds no byte, so it is
writable wherever it ends within memory.  What is refused changes nothing.

A host may ask for a slice of any 64-bit length.  The end of such a slice is
computed in 64 bits, and where the sum is no 64-bit number the request has no
answer at all (`view?`, `writableView?`).  The machine itself only asks for
short slices, which always have one.
-/

namespace SuperChip

/-- The memory of a machine. -/
structure Ram where
  /-- The bytes, from address zero. -/
  bytes : Array UInt8
deriving DecidableEq

namespace Ram

/-- The number of bytes. -/
def size (r : Ram) : Nat := r.bytes.size

/-- Memory of a size, with the glyphs at its start and zeros behind them. -/
def build (size : Nat) : Except Fault Ram :=
  if size ≤ Glyphs.reservedEnd then
    .error (.badSettings (.noRoomForGlyphs size Glyphs.reservedEnd))
  else
    .ok ⟨(Glyphs.sheets ++ List.replicate (size - Glyphs.reservedEnd) 0).toArray⟩

/-! ## Reading -/

/-- The byte at an address. -/
def byte (r : Ram) (address : UInt16) : Except Fault UInt8 :=
  match r.bytes[address.toNat]? with
  | some b => .ok b
  | none => .error (.outOfBounds address)

/-- The sixteen bit word at an address, its high byte first. -/
def word (r : Ram) (address : UInt16) : Except Fault UInt16 :=
  if h : address.toNat + 2 ≤ r.bytes.size then
    .ok (UInt16.ofNat (256 * r.bytes[address.toNat].toNat + r.bytes[address.toNat + 1].toNat))
  else .error (.outOfBounds address)

/-- The bytes of a readable slice. -/
def slice (r : Ram) (address : UInt16) (length : Nat) : Except Fault (List UInt8) :=
  if address.toNat + length ≤ r.size then
    .ok (r.bytes.extract address.toNat (address.toNat + length)).toList
  else .error (.outOfBounds address)

/-! ## Writing -/

/-- Puts bytes one after the other, from an index on. -/
def put (bytes : Array UInt8) (start : Nat) : List UInt8 → Array UInt8
  | [] => bytes
  | b :: data => put (bytes.setIfInBounds start b) (start + 1) data

/-- The bytes of a writable slice. -/
def writableSlice (r : Ram) (address : UInt16) (length : Nat) : Except Fault (List UInt8) :=
  if 0 < length ∧ address.toNat < Glyphs.reservedEnd then .error (.outOfBounds address)
  else r.slice address length

/-- Overwrites a writable slice as long as the data. -/
def write (r : Ram) (address : UInt16) (data : List UInt8) : Except Fault Ram :=
  if 0 < data.length ∧ address.toNat < Glyphs.reservedEnd then .error (.outOfBounds address)
  else if address.toNat + data.length ≤ r.size then .ok ⟨put r.bytes address.toNat data⟩
  else .error (.outOfBounds address)

/-- Puts a program at an address.  A program that does not fit is told apart
from one that would overwrite the glyphs, and the former is looked for first. -/
def load (r : Ram) (address : UInt16) (program : List UInt8) : Except Fault Ram :=
  if r.size < address.toNat + program.length then
    .error (.programTooLong address program.length r.size)
  else r.write address program

/-- A number brought into the range of addresses by counting on from zero behind
the last byte. -/
def wrap (r : Ram) (n : Nat) : UInt16 := UInt16.ofNat (n % r.size)

/-! ## Requests of any length -/

/-- Whether the end of a requested slice is a 64-bit number. -/
def Spans (address : UInt16) (length : UInt64) : Prop :=
  address.toNat + length.toNat < UInt64.size

instance (address : UInt16) (length : UInt64) : Decidable (Spans address length) :=
  inferInstanceAs (Decidable (_ < _))

/-- The bytes of a slice of any 64-bit length; `none` when its end is no 64-bit
number. -/
def view? (r : Ram) (address : UInt16) (length : UInt64) :
    Option (Except Fault (List UInt8)) :=
  if Spans address length then some (r.slice address length.toNat) else none

/-- The bytes of a writable slice of any 64-bit length.  A start among the glyphs
is refused before the end is computed. -/
def writableView? (r : Ram) (address : UInt16) (length : UInt64) :
    Option (Except Fault (List UInt8)) :=
  if 0 < length.toNat ∧ address.toNat < Glyphs.reservedEnd then
    some (.error (.outOfBounds address))
  else r.view? address length

/-! ## What is read -/

/-- The byte that memory holds at an index, zero beyond its end. -/
def cell (r : Ram) (i : Nat) : UInt8 := r.bytes[i]?.getD 0

theorem byte_eq_ok_iff {r : Ram} {address : UInt16} {b : UInt8} :
    r.byte address = .ok b ↔ address.toNat < r.size ∧ b = r.cell address.toNat := by
  unfold byte cell size
  by_cases h : address.toNat < r.bytes.size
  · simp [h, eq_comm]
  · simp [h]

theorem word_eq_ok_iff {r : Ram} {address w : UInt16} :
    r.word address = .ok w ↔
      address.toNat + 2 ≤ r.size ∧
        w = UInt16.ofNat (256 * (r.cell address.toNat).toNat + (r.cell (address.toNat + 1)).toNat) := by
  unfold word cell size
  by_cases h : address.toNat + 2 ≤ r.bytes.size
  · have h0 : address.toNat < r.bytes.size := by omega
    have h1 : address.toNat + 1 < r.bytes.size := by omega
    simp [h, h0, h1, eq_comm]
  · simp [h]

theorem slice_eq_ok_iff {r : Ram} {address : UInt16} {length : Nat} {bytes : List UInt8} :
    r.slice address length = .ok bytes ↔
      address.toNat + length ≤ r.size ∧
        bytes = (r.bytes.extract address.toNat (address.toNat + length)).toList := by
  unfold slice
  by_cases h : address.toNat + length ≤ r.size
  · simp [h, eq_comm]
  · simp [h]

theorem length_slice {r : Ram} {address : UInt16} {length : Nat} {bytes : List UInt8}
    (h : r.slice address length = .ok bytes) : bytes.length = length := by
  obtain ⟨hs, rfl⟩ := slice_eq_ok_iff.mp h
  unfold size at hs
  simp only [Array.length_toList, Array.size_extract]
  omega

/-- A slice shows the bytes of memory from its address on. -/
theorem getElem?_slice {r : Ram} {address : UInt16} {length : Nat} {bytes : List UInt8}
    (h : r.slice address length = .ok bytes) {i : Nat} (hi : i < length) :
    bytes[i]? = some (r.cell (address.toNat + i)) := by
  obtain ⟨hs, rfl⟩ := slice_eq_ok_iff.mp h
  unfold size at hs
  simp only [cell, Array.getElem?_toList, Array.getElem?_extract]
  grind

/-! ## What is written -/

theorem size_put (bytes : Array UInt8) (start : Nat) (data : List UInt8) :
    (put bytes start data).size = bytes.size := by
  induction data generalizing bytes start with
  | nil => rfl
  | cons b data ih => rw [put, ih, Array.size_setIfInBounds]

theorem getElem?_put (bytes : Array UInt8) (start : Nat) (data : List UInt8) (i : Nat) :
    (put bytes start data)[i]? =
      if start ≤ i ∧ i < start + data.length ∧ i < bytes.size then data[i - start]?
      else bytes[i]? := by
  induction data generalizing bytes start with
  | nil =>
      simp only [put, List.length_nil, Nat.add_zero]
      rw [if_neg (by omega)]
  | cons b data ih =>
      rw [put, ih]
      by_cases h : i = start
      · subst h
        simp
        grind
      · grind

theorem write_eq_ok_iff {r s : Ram} {address : UInt16} {data : List UInt8} :
    r.write address data = .ok s ↔
      (data = [] ∨ Glyphs.reservedEnd ≤ address.toNat) ∧
        address.toNat + data.length ≤ r.size ∧ s = ⟨put r.bytes address.toNat data⟩ := by
  have hn : (0 < data.length ∧ address.toNat < Glyphs.reservedEnd) ↔
      ¬(data = [] ∨ Glyphs.reservedEnd ≤ address.toNat) := by
    rw [List.length_pos_iff]
    simp
  rw [write, ite_cond_congr (propext hn)]
  by_cases h : data = [] ∨ Glyphs.reservedEnd ≤ address.toNat
  · by_cases hs : address.toNat + data.length ≤ r.size
    · simp [h, hs, eq_comm]
    · simp [h, hs]
  · simp [h]

/-- A write replaces the bytes of its slice and keeps all others. -/
theorem cell_write {r s : Ram} {address : UInt16} {data : List UInt8}
    (h : r.write address data = .ok s) (i : Nat) :
    s.cell i =
      if address.toNat ≤ i ∧ i < address.toNat + data.length then data[i - address.toNat]?.getD 0
      else r.cell i := by
  obtain ⟨_, hs, rfl⟩ := write_eq_ok_iff.mp h
  unfold size at hs
  simp only [cell, getElem?_put]
  by_cases hi : address.toNat ≤ i ∧ i < address.toNat + data.length
  · rw [if_pos ⟨hi.1, hi.2, by omega⟩, if_pos hi]
  · rw [if_neg (by omega), if_neg hi]

theorem size_write {r s : Ram} {address : UInt16} {data : List UInt8}
    (h : r.write address data = .ok s) : s.size = r.size := by
  obtain ⟨_, _, rfl⟩ := write_eq_ok_iff.mp h
  exact size_put _ _ _

/-- A program that is put into memory is written there. -/
theorem write_of_load {r s : Ram} {address : UInt16} {program : List UInt8}
    (h : r.load address program = .ok s) : r.write address program = .ok s := by
  unfold load at h
  split at h
  · cases h
  · exact h

theorem size_build {size : Nat} {r : Ram} (h : build size = .ok r) : r.size = size := by
  unfold build at h
  split at h
  · cases h
  · rename_i hs
    cases h
    have hl : Glyphs.sheets.length = Glyphs.reservedEnd := Glyphs.length_sheets
    simp only [Ram.size, List.size_toArray, List.length_append, List.length_replicate, hl]
    omega

/-- In a memory that sixteen bits reach, wrapping is the remainder by its size. -/
theorem toNat_wrap {r : Ram} (h0 : 0 < r.size) (h : r.size ≤ 0x10000) (n : Nat) :
    (r.wrap n).toNat = n % r.size := by
  have := Nat.mod_lt n h0
  rw [wrap, UInt16.toNat_ofNat']
  exact Nat.mod_eq_of_lt (by omega)

end Ram

end SuperChip
