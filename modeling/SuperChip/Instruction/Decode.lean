import SuperChip.Fault
import SuperChip.Instruction

/-!
# Decoding

A word is four hexadecimal digits.  The first one, its *family*, says how the
others are read: as register numbers X and Y, as a count N, as a byte KK (the
last two digits) or as an address NNN (the last three).

Most families hold one instruction.  Family 0 looks at the last two digits only,
family 8 at the last one, families E and F at the last two.  Every other digit
that is no operand is free.
-/

namespace SuperChip

/-! ## The parts of a word -/

namespace Word

/-- The first digit. -/
def family (w : UInt16) : Nat := w.toNat / 4096

/-- The second digit. -/
def x (w : UInt16) : UInt8 := UInt8.ofNat (w.toNat / 256 % 16)

/-- The third digit. -/
def y (w : UInt16) : UInt8 := UInt8.ofNat (w.toNat / 16 % 16)

/-- The last digit. -/
def n (w : UInt16) : UInt8 := UInt8.ofNat (w.toNat % 16)

/-- The last two digits. -/
def kk (w : UInt16) : UInt8 := UInt8.ofNat (w.toNat % 256)

/-- The last three digits. -/
def nnn (w : UInt16) : UInt16 := UInt16.ofNat (w.toNat % 4096)

theorem toNat_x (w : UInt16) : (x w).toNat = w.toNat / 256 % 16 := by
  rw [x, UInt8.toNat_ofNat']
  omega

theorem toNat_y (w : UInt16) : (y w).toNat = w.toNat / 16 % 16 := by
  rw [y, UInt8.toNat_ofNat']
  omega

theorem toNat_n (w : UInt16) : (n w).toNat = w.toNat % 16 := by
  rw [n, UInt8.toNat_ofNat']
  omega

theorem toNat_kk (w : UInt16) : (kk w).toNat = w.toNat % 256 := by
  rw [kk, UInt8.toNat_ofNat']
  omega

theorem toNat_nnn (w : UInt16) : (nnn w).toNat = w.toNat % 4096 := by
  rw [nnn, UInt16.toNat_ofNat']
  omega

end Word

/-! ## Families -/

namespace Instruction

/-- Family 0, by the last two digits. -/
def ofSystem (w : UInt16) : Option Instruction :=
  match w.toNat / 16 % 16, w.toNat % 16 with
  | 0x0, 0x0 => some .nop
  | 0xC, _ => some (.scrollDown (Word.n w))
  | 0xE, 0x0 => some .clear
  | 0xE, 0xE => some .ret
  | 0xF, 0xB => some .scrollRight
  | 0xF, 0xC => some .scrollLeft
  | 0xF, 0xD => some .nop
  | 0xF, 0xE => some .extend
  | 0xF, 0xF => some .shrink
  | _, _ => none

/-- Family 8, by the last digit. -/
def ofArithmetic (w : UInt16) : Option Instruction :=
  match w.toNat % 16 with
  | 0x0 => some (.move (Word.x w) (Word.y w))
  | 0x1 => some (.or (Word.x w) (Word.y w))
  | 0x2 => some (.and (Word.x w) (Word.y w))
  | 0x3 => some (.xor (Word.x w) (Word.y w))
  | 0x4 => some (.addReg (Word.x w) (Word.y w))
  | 0x5 => some (.sub (Word.x w) (Word.y w))
  | 0x6 => some (.shr (Word.x w))
  | 0x7 => some (.subN (Word.x w) (Word.y w))
  | 0xE => some (.shl (Word.x w))
  | _ => none

/-- Family E, by the last two digits. -/
def ofKey (w : UInt16) : Option Instruction :=
  match w.toNat / 16 % 16, w.toNat % 16 with
  | 0x9, 0xE => some (.skipPressed (Word.x w))
  | 0xA, 0x1 => some (.skipNotPressed (Word.x w))
  | _, _ => none

/-- Family F, by the last two digits. -/
def ofDevice (w : UInt16) : Option Instruction :=
  match w.toNat / 16 % 16, w.toNat % 16 with
  | 0x0, 0x7 => some (.loadDelay (Word.x w))
  | 0x0, 0xA => some (.waitKey (Word.x w))
  | 0x1, 0x5 => some (.setDelay (Word.x w))
  | 0x1, 0x8 => some (.setSound (Word.x w))
  | 0x1, 0xE => some (.addIndex (Word.x w))
  | 0x2, 0x9 => some (.glyph (Word.x w))
  | 0x3, 0x0 => some (.largeGlyph (Word.x w))
  | 0x3, 0x3 => some (.bcd (Word.x w))
  | 0x5, 0x5 => some (.store (Word.x w))
  | 0x6, 0x5 => some (.read (Word.x w))
  | 0x7, 0x5 => some (.saveFlags (Word.x w))
  | 0x8, 0x5 => some (.loadFlags (Word.x w))
  | _, _ => none

/-! ## Words -/

/-- The instruction a word stands for, if it stands for one. -/
def decode? (w : UInt16) : Option Instruction :=
  match Word.family w with
  | 0x0 => ofSystem w
  | 0x1 => some (.jump (Word.nnn w))
  | 0x2 => some (.call (Word.nnn w))
  | 0x3 => some (.skipEq (Word.x w) (Word.kk w))
  | 0x4 => some (.skipNe (Word.x w) (Word.kk w))
  | 0x5 => some (.skipEqReg (Word.x w) (Word.y w))
  | 0x6 => some (.load (Word.x w) (Word.kk w))
  | 0x7 => some (.add (Word.x w) (Word.kk w))
  | 0x8 => ofArithmetic w
  | 0x9 => some (.skipNeReg (Word.x w) (Word.y w))
  | 0xA => some (.loadIndex (Word.nnn w))
  | 0xB => some (.jumpIndexed (Word.nnn w))
  | 0xC => some (.random (Word.x w) (Word.kk w))
  | 0xD => some (.draw (Word.x w) (Word.y w) (Word.n w))
  | 0xE => ofKey w
  | 0xF => ofDevice w
  | _ => none

/-- The instruction of a word that was fetched from an address. -/
def decode (w address : UInt16) : Except Fault Instruction :=
  match decode? w with
  | some i => .ok i
  | none => .error (.unsupportedOpcode w address)

end Instruction

end SuperChip
