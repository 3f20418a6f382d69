/-!
# Glyphs

Pictures of the sixteen hexadecimal digits, in two sizes.  A *small* glyph is
five rows of one byte with the picture in the high half; a *large* glyph is ten
rows of one byte.  The glyphs stand at the start of memory, the small sheet
first and the large sheet behind it, and the region they fill, up to
`reservedEnd`, is never written.
-/

namespace SuperChip.Glyphs

/-! ## The sheets -/

/-- The small glyphs, one digit a line, from 0 to F. -/
def small : List UInt8 :=
  [0xF0, 0x90, 0x90, 0x90, 0xF0,
   0x20, 0x60, 0x20, 0x20, 0x70,
   0xF0, 0x10, 0xF0, 0x80, 0xF0,
   0xF0, 0x10, 0xF0, 0x10, 0xF0,
   0x90, 0x90, 0xF0, 0x10, 0x10,
   0xF0, 0x80, 0xF0, 0x10, 0xF0,
   0xF0, 0x80, 0xF0, 0x90, 0xF0,
   0xF0, 0x10, 0x20, 0x40, 0x40,
   0xF0, 0x90, 0xF0, 0x90, 0xF0,
   0xF0, 0x90, 0xF0, 0x10, 0xF0,
   0xF0, 0x90, 0xF0, 0x90, 0x90,
   0xE0, 0x90, 0xE0, 0x90, 0xE0,
   0xF0, 0x80, 0x80, 0x80, 0xF0,
   0xE0, 0x90, 0x90, 0x90, 0xE0,
   0xF0, 0x80, 0xF0, 0x80, 0xF0,
   0xF0, 0x80, 0xF0, 0x80, 0x80]

/-- The large glyphs, one digit a line, from 0 to F. -/
def large : List UInt8 :=
  [0x3C, 0x7E, 0xE7, 0xC3, 0xC3, 0xC3, 0xC3, 0xE7, 0x7E, 0x3C,
   0x18, 0x38, 0x58, 0x18, 0x18, 0x18, 0x18, 0x18, 0x18, 0x3C,
   0x3E, 0x7F, 0xC3, 0x06, 0x0C, 0x18, 0x30, 0x60, 0xFF, 0xFF,
   0x3C, 0x7E, 0xC3, 0x03, 0x0E, 0x0E, 0x03, 0xC3, 0x7E, 0x3C,
   0x06, 0x0E, 0x1E, 0x36, 0x66, 0xC6, 0xFF, 0xFF, 0x06, 0x06,
   0xFF, 0xFF, 0xC0, 0xC0, 0xFC, 0xFE, 0x03, 0xC3, 0x7E, 0x3C,
   0x3E, 0x7C, 0xE0, 0xC0, 0xFC, 0xFE, 0xC3, 0xC3, 0x7E, 0x3C,
   0xFF, 0xFF, 0x03, 0x06, 0x0C, 0x18, 0x30, 0x60, 0x60, 0x60,
   0x3C, 0x7E, 0xC3, 0xC3, 0x7E, 0x7E, 0xC3, 0xC3, 0x7E, 0x3C,
   0x3C, 0x7E, 0xC3, 0xC3, 0x7F, 0x3F, 0x03, 0x03, 0x3E, 0x7C,
   0x3C, 0x7E, 0xC3, 0xC3, 0xFF, 0xFF, 0xC3, 0xC3, 0xC3, 0xC3,
   0xFC, 0xFE, 0xC3, 0xC3, 0xFE, 0xFE, 0xC3, 0xC3, 0xFE, 0xFC,
   0x3C, 0x7E, 0xC3, 0xC0, 0xC0, 0xC0, 0xC0, 0xC3, 0x7E, 0x3C,
   0xFC, 0xFE, 0xC3, 0xC3, 0xC3, 0xC3, 0xC3, 0xC3, 0xFE, 0xFC,
   0xFF, 0xFF, 0xC0, 0xC0, 0xFC, 0xFC, 0xC0, 0xC0, 0xFF, 0xFF,
   0xFF, 0xFF, 0xC0, 0xC0, 0xFC, 0xFC, 0xC0, 0xC0, 0xC0, 0xC0]

/-! ## Where they stand -/

/-- Bytes of a small glyph. -/
def smallStride : Nat := 5

/-- Bytes of a large glyph. -/
def largeStride : Nat := 10

/-- The address of the small sheet. -/
def smallStart : Nat := 0x00

/-- The address of the large sheet. -/
def largeStart : Nat := 0x50

/-- The first address behind the glyphs. -/
def reservedEnd : Nat := 0xF0

/-- What stands below `reservedEnd`. -/
def sheets : List UInt8 := small ++ large

/-- The address of the small glyph of the low half of a byte. -/
def smallAt (digit : UInt8) : UInt16 :=
  UInt16.ofNat (smallStart + digit.toNat % 16 * smallStride)

/-- The address of the large glyph of the low half of a byte. -/
def largeAt (digit : UInt8) : UInt16 :=
  UInt16.ofNat (largeStart + digit.toNat % 16 * largeStride)

/-! ## Sizes -/

theorem length_small : small.length = 16 * smallStride := rfl

set_option maxRecDepth 2000 in
theorem length_large : large.length = 16 * largeStride := rfl

theorem length_sheets : sheets.length = reservedEnd := by
  rw [sheets, List.length_append, length_small, length_large]
  rfl

end SuperChip.Glyphs
