import SuperChip.Text.Numeral
import SuperChip.Text.Record

/-!
# Instructions

What a machine can be told to do, one constructor for each form.  Operands are
numbers: of registers (`x`, `y`), a byte (`kk`), a count (`n`) or an address.
Nothing here bounds them; `Instruction.decode?` only makes register numbers and
counts below sixteen and addresses below `0x1000`.

`Instruction.describe` writes an instruction as a record of its operands in
decimal.
-/

namespace SuperChip

/-- One instruction.  The words it is decoded from are given with each form. -/
inductive Instruction where
  /-- `0_00`, `0_FD`: nothing. -/
  | nop
  /-- `0_E0`: all pixels off. -/
  | clear
  /-- `0_EE`: back to behind the last open call. -/
  | ret
  /-- `0_CN`: the picture moves down. -/
  | scrollDown (n : UInt8)
  /-- `0_FB`: the picture moves right. -/
  | scrollRight
  /-- `0_FC`: the picture moves left. -/
  | scrollLeft
  /-- `0_FE`: the large surface. -/
  | extend
  /-- `0_FF`: the small surface. -/
  | shrink
  /-- `1NNN`: on at an address. -/
  | jump (address : UInt16)
  /-- `2NNN`: on at an address, with a return address kept. -/
  | call (address : UInt16)
  /-- `3XKK`: skip if VX is a byte. -/
  | skipEq (x kk : UInt8)
  /-- `4XKK`: skip if VX is not a byte. -/
  | skipNe (x kk : UInt8)
  /-- `5XY_`: skip if VX is VY. -/
  | skipEqReg (x y : UInt8)
  /-- `6XKK`: a byte into VX. -/
  | load (x kk : UInt8)
  /-- `7XKK`: VX plus a byte, without a flag. -/
  | add (x kk : UInt8)
  /-- `8XY0`: VY into VX. -/
  | move (x y : UInt8)
  /-- `8XY1`: VX or VY. -/
  | or (x y : UInt8)
  /-- `8XY2`: VX and VY. -/
  | and (x y : UInt8)
  /-- `8XY3`: VX exclusive-or VY. -/
  | xor (x y : UInt8)
  /-- `8XY4`: VX plus VY, the carry into VF. -/
  | addReg (x y : UInt8)
  /-- `8XY5`: VX less VY, VF on unless it borrows. -/
  | sub (x y : UInt8)
  /-- `8X_6`: half of VX, the lost bit into VF. -/
  | shr (x : UInt8)
  /-- `8XY7`: VY less VX, VF on unless it borrows. -/
  | subN (x y : UInt8)
  /-- `8X_E`: twice VX, the lost bit into VF. -/
  | shl (x : UInt8)
  /-- `9XY_`: skip if VX is not VY. -/
  | skipNeReg (x y : UInt8)
  /-- `ANNN`: an address into I. -/
  | loadIndex (address : UInt16)
  /-- `BNNN`: on at an address plus V0. -/
  | jumpIndexed (address : UInt16)
  /-- `CXKK`: a random byte under a mask into VX. -/
  | random (x kk : UInt8)
  /-- `DXYN`: a sprite from I at VX, VY, the collision into VF. -/
  | draw (x y n : UInt8)
  /-- `EX9E`: skip if the key labelled VX is held. -/
  | skipPressed (x : UInt8)
  /-- `EXA1`: skip if the key labelled VX is not held. -/
  | skipNotPressed (x : UInt8)
  /-- `FX07`: the delay count into VX. -/
  | loadDelay (x : UInt8)
  /-- `FX0A`: the label of a held key into VX, once there is one. -/
  | waitKey (x : UInt8)
  /-- `FX15`: VX into the delay count. -/
  | setDelay (x : UInt8)
  /-- `FX18`: VX into the sound count. -/
  | setSound (x : UInt8)
  /-- `FX1E`: I plus VX. -/
  | addIndex (x : UInt8)
  /-- `FX29`: the address of the small glyph of VX into I. -/
  | glyph (x : UInt8)
  /-- `FX30`: the address of the large glyph of VX into I. -/
  | largeGlyph (x : UInt8)
  /-- `FX33`: the three decimal digits of VX to I and behind. -/
  | bcd (x : UInt8)
  /-- `FX55`: V0 to VX to I and behind. -/
  | store (x : UInt8)
  /-- `FX65`: V0 to VX from I and behind. -/
  | read (x : UInt8)
  /-- `FX75`: V0 to VX into the saved flags. -/
  | saveFlags (x : UInt8)
  /-- `FX85`: V0 to VX from the saved flags. -/
  | loadFlags (x : UInt8)
deriving DecidableEq

namespace Instruction

/-! ## As a record -/

/-- A record of one register. -/
private def ofX (name : String) (x : UInt8) : String :=
  Record.named name [("x", Numeral.decimal x.toNat)]

/-- A record of two registers. -/
private def ofXY (name : String) (x y : UInt8) : String :=
  Record.named name [("x", Numeral.decimal x.toNat), ("y", Numeral.decimal y.toNat)]

/-- A record of a register and a byte. -/
private def ofXKK (name : String) (x kk : UInt8) : String :=
  Record.named name [("x", Numeral.decimal x.toNat), ("kk", Numeral.decimal kk.toNat)]

/-- A form with one unnamed operand. -/
private def ofOne (name : String) (operand : Nat) : String :=
  Record.single name (Numeral.decimal operand)

/-- The instruction written as a record of its operands. -/
def describe : Instruction → String
  | .nop => "Nop"
  | .clear => "Clear"
  | .ret => "Return"
  | .scrollDown n => ofOne "ScrollDown" n.toNat
  | .scrollRight => "ScrollRight"
  | .scrollLeft => "ScrollLeft"
  | .extend => "Extend"
  | .shrink => "Shrink"
  | .jump address => ofOne "Jump" address.toNat
  | .call address => ofOne "Call" address.toNat
  | .skipEq x kk => ofXKK "SkipEq" x kk
  | .skipNe x kk => ofXKK "SkipNe" x kk
  | .skipEqReg x y => ofXY "SkipEqReg" x y
  | .load x kk => ofXKK "Load" x kk
  | .add x kk => ofXKK "Add" x kk
  | .move x y => ofXY "Move" x y
  | .or x y => ofXY "Or" x y
  | .and x y => ofXY "And" x y
  | .xor x y => ofXY "Xor" x y
  | .addReg x y => ofXY "AddReg" x y
  | .sub x y => ofXY "Sub" x y
  | .shr x => ofX "Shr" x
  | .subN x y => ofXY "SubN" x y
  | .shl x => ofX "Shl" x
  | .skipNeReg x y => ofXY "SkipNeReg" x y
  | .loadIndex address => ofOne "LoadIndex" address.toNat
  | .jumpIndexed address => ofOne "JumpIndexed" address.toNat
  | .random x kk => ofXKK "Random" x kk
  | .draw x y n =>
      Record.named "Draw"
        [("x", Numeral.decimal x.toNat), ("y", Numeral.decimal y.toNat),
         ("n", Numeral.decimal n.toNat)]
  | .skipPressed x => ofOne "SkipPressed" x.toNat
  | .skipNotPressed x => ofOne "SkipNotPressed" x.toNat
  | .loadDelay x => ofOne "LoadDelay" x.toNat
  | .waitKey x => ofOne "WaitKey" x.toNat
  | .setDelay x => ofOne "SetDelay" x.toNat
  | .setSound x => ofOne "SetSound" x.toNat
  | .addIndex x => ofOne "AddIndex" x.toNat
  | .glyph x => ofOne "Glyph" x.toNat
  | .largeGlyph x => ofOne "LargeGlyph" x.toNat
  | .bcd x => ofOne "Bcd" x.toNat
  | .store x => ofOne "Store" x.toNat
  | .read x => ofOne "Read" x.toNat
  | .saveFlags x => ofOne "SaveFlags" x.toNat
  | .loadFlags x => ofOne "LoadFlags" x.toNat

end Instruction

end SuperChip
