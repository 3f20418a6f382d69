import SuperChip.Instruction

/-!
# The assembly listing

An instruction is listed as the name of its operation and its operands, as in
`DRW V1, V2, 0xf`.  An *operand* is a register, a number, or one of the places
that have a name of their own: the address register, memory at it, the two
timers, the keypad, the glyphs, decimal digits, the saved flags.

Registers are numbered in upper case without padding.  A byte has at least two
digits, an address at least three, a count as many as it needs.

`Instruction.listing` covers every instruction, `Instruction.mnemonic` every one
that does something.
-/

namespace SuperChip

/-! ## Operands -/

/-- One operand of a listed instruction. -/
inductive Operand where
  /-- A V register. -/
  | register (x : UInt8)
  /-- A byte. -/
  | byte (kk : UInt8)
  /-- An address. -/
  | address (a : UInt16)
  /-- A number of rows. -/
  | count (n : UInt8)
  /-- The address register. -/
  | index
  /-- Memory at the address register. -/
  | atIndex
  /-- The delay timer. -/
  | delay
  /-- The sound timer. -/
  | sound
  /-- The keypad. -/
  | key
  /-- A small glyph. -/
  | glyph
  /-- A large glyph. -/
  | largeGlyph
  /-- Decimal digits. -/
  | digits
  /-- The saved flags. -/
  | flags
deriving DecidableEq

/-- The text of an operand. -/
def Operand.text : Operand → String
  | .register x => "V" ++ Numeral.upperHex 1 x.toNat
  | .byte kk => Numeral.lowerAddress 2 kk.toNat
  | .address a => Numeral.lowerAddress 3 a.toNat
  | .count n => Numeral.lowerAddress 1 n.toNat
  | .index => "I"
  | .atIndex => "[I]"
  | .delay => "DT"
  | .sound => "ST"
  | .key => "K"
  | .glyph => "F"
  | .largeGlyph => "HF"
  | .digits => "B"
  | .flags => "R"

/-! ## Listings -/

namespace Instruction

/-- The name of the operation. -/
def operation : Instruction → String
  | .nop => "NOP"
  | .clear => "CLS"
  | .ret => "RET"
  | .scrollDown _ => "SCD"
  | .scrollRight => "SCR"
  | .scrollLeft => "SCL"
  | .extend => "HIGH"
  | .shrink => "LOW"
  | .jump _ | .jumpIndexed _ => "JP"
  | .call _ => "CALL"
  | .skipEq _ _ | .skipEqReg _ _ => "SE"
  | .skipNe _ _ | .skipNeReg _ _ => "SNE"
  | .add _ _ | .addReg _ _ | .addIndex _ => "ADD"
  | .or _ _ => "OR"
  | .and _ _ => "AND"
  | .xor _ _ => "XOR"
  | .sub _ _ => "SUB"
  | .shr _ => "SHR"
  | .subN _ _ => "SUBN"
  | .shl _ => "SHL"
  | .random _ _ => "RND"
  | .draw _ _ _ => "DRW"
  | .skipPressed _ => "SKP"
  | .skipNotPressed _ => "SKNP"
  | .load _ _ | .move _ _ | .loadIndex _ | .loadDelay _ | .waitKey _ | .setDelay _ | .setSound _
  | .glyph _ | .largeGlyph _ | .bcd _ | .store _ | .read _ | .saveFlags _ | .loadFlags _ => "LD"

/-- The operands, the one written to first. -/
def operands : Instruction → List Operand
  | .nop | .clear | .ret | .scrollRight | .scrollLeft | .extend | .shrink => []
  | .scrollDown n => [.count n]
  | .jump a | .call a => [.address a]
  | .skipEq x kk | .skipNe x kk | .load x kk | .add x kk | .random x kk => [.register x, .byte kk]
  | .skipEqReg x y | .skipNeReg x y | .move x y | .or x y | .and x y | .xor x y | .addReg x y
  | .sub x y | .subN x y => [.register x, .register y]
  | .shr x | .shl x | .skipPressed x | .skipNotPressed x => [.register x]
  | .loadIndex a => [.index, .address a]
  | .jumpIndexed a => [.register 0, .address a]
  | .draw x y n => [.register x, .register y, .count n]
  | .loadDelay x => [.register x, .delay]
  | .waitKey x => [.register x, .key]
  | .setDelay x => [.delay, .register x]
  | .setSound x => [.sound, .register x]
  | .addIndex x => [.index, .register x]
  | .glyph x => [.glyph, .register x]
  | .largeGlyph x => [.largeGlyph, .register x]
  | .bcd x => [.digits, .register x]
  | .store x => [.atIndex, .register x]
  | .read x => [.register x, .atIndex]
  | .saveFlags x => [.flags, .register x]
  | .loadFlags x => [.register x, .flags]

/-- The line of an instruction in an assembly listing. -/
def listing (i : Instruction) : String :=
  match i.operands with
  | [] => i.operation
  | operands => i.operation ++ " " ++ Record.separated (operands.map Operand.text)

/-- The listing of an instruction that does something. -/
def mnemonic : Instruction → Option String
  | .nop => none
  | i => some i.listing

theorem mnemonic_eq_none_iff {i : Instruction} : i.mnemonic = none ↔ i = nop := by
  cases i <;> simp [mnemonic]

theorem mnemonic_eq_listing {i : Instruction} (h : i.mnemonic ≠ none) :
    i.mnemonic = some i.listing := by
  cases i with
  | nop => exact absurd rfl h
  | _ => rfl

end Instruction

end SuperChip
