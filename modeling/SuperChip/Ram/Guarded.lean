import SuperChip.Guard
import SuperChip.Ram

/-!
# Guarded memory

What can be done to memory, made of guarded operations only.  Each has the result of
its counterpart without guards, or none.  Ends of slices are numbers of 64 bits.
-/

namespace SuperChip.Ram.Guarded

/-- Memory of a size, with the two sheets of glyphs at its start and zeros behind them. -/
def build (size : Nat) : Option (Except Fault Ram) := do
  if size ≤ Glyphs.reservedEnd then
    return .error (.badSettings (.noRoomForGlyphs size Glyphs.reservedEnd))
  else
    let zeros := Array.replicate size 0
    let small ← Guard.copy zeros 0 Glyphs.small.length Glyphs.small.toArray
    let behind ← Guard.held64 (Glyphs.largeStart + Glyphs.large.length)
    return .ok ⟨← Guard.copy small Glyphs.largeStart behind Glyphs.large.toArray⟩

/-- The bytes of a readable slice. -/
def slice (r : Ram) (address : UInt16) (length : Nat) : Option (Except Fault (Array UInt8)) := do
  let behind ← Guard.held64 (address.toNat + length)
  if r.size < behind then return .error (.outOfBounds address)
  else return .ok (← Guard.span r.bytes address.toNat behind)

/-- The bytes of a writable slice.  A start among the glyphs is refused before the end is
computed. -/
def writableSlice (r : Ram) (address : UInt16) (length : Nat) :
    Option (Except Fault (Array UInt8)) := do
  if 0 < length ∧ address.toNat < Glyphs.reservedEnd then return .error (.outOfBounds address)
  else slice r address length

/-- The sixteen bit word at an address, its high byte first. -/
def word (r : Ram) (address : UInt16) : Option (Except Fault UInt16) := do
  match ← slice r address 2 with
  | .error fault => return .error fault
  | .ok bytes =>
      let high ← Guard.cell bytes 0
      let low ← Guard.cell bytes 1
      return .ok (UInt16.ofNat (256 * high.toNat + low.toNat))

/-- Overwrites a writable slice as long as the data. -/
def write (r : Ram) (address : UInt16) (data : List UInt8) : Option (Except Fault Ram) := do
  if 0 < data.length ∧ address.toNat < Glyphs.reservedEnd then
    return .error (.outOfBounds address)
  else
    let behind ← Guard.held64 (address.toNat + data.length)
    if r.size < behind then return .error (.outOfBounds address)
    else return .ok ⟨← Guard.copy r.bytes address.toNat behind data.toArray⟩

/-- Puts a program at an address. -/
def load (r : Ram) (address : UInt16) (program : List UInt8) : Option (Except Fault Ram) := do
  let behind ← Guard.held64 (address.toNat + program.length)
  if r.size < behind then return .error (.programTooLong address program.length r.size)
  else write r address program

/-- A number brought into the range of addresses. -/
def wrap (r : Ram) (n : Nat) : Option UInt16 := do
  return UInt16.ofNat (← Guard.remainder n r.size)

end SuperChip.Ram.Guarded
