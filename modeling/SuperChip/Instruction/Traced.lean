import SuperChip.Instruction.Listing

/-!
# Traced instructions

What an observer is told about one executed instruction: the address it was
fetched from, its word, and the instruction itself.
-/

namespace SuperChip

/-- One executed instruction, as an observer sees it. -/
structure Traced where
  /-- The address of the word, from before the program counter moved on. -/
  pc : UInt16
  /-- The word, from before the instruction changed memory. -/
  word : UInt16
  /-- What the word was decoded to. -/
  instruction : Instruction
deriving DecidableEq

namespace Traced

/-- The listing of the instruction, if it does something. -/
def mnemonic (t : Traced) : Option String := t.instruction.mnemonic

/-- The line of a trace, with question marks for an instruction that does nothing. -/
def line (t : Traced) : String :=
  Numeral.lowerHex 4 t.pc.toNat ++ "    " ++ Numeral.lowerHex 4 t.word.toNat ++ ": "
    ++ t.mnemonic.getD "???"

end Traced

end SuperChip
