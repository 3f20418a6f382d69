import SuperChip.Text.Numeral

/-!
# Faults

A *fault* is a reason why the machine cannot go on: a word that is no
instruction, an access outside of memory, a call stack that is full or empty, a
program that does not fit, settings that describe no machine.  Faults are
values with what they are about; `Fault.message` is the one place that words
them.
-/

namespace SuperChip

/-! ## Settings that describe no machine -/

/-- Why no machine can be built, or no timer started, as asked. -/
inductive SettingsFault where
  /-- Fewer bytes than the glyphs and one instruction take. -/
  | memoryTooSmall (size least : Nat)
  /-- More bytes than a sixteen bit address reaches. -/
  | memoryTooLarge (size : Nat)
  /-- A call stack without a single slot. -/
  | noStack
  /-- A timer of the machine with no ticks. -/
  | noTicks
  /-- Memory that does not even hold the glyphs. -/
  | noRoomForGlyphs (size glyphs : Nat)
  /-- A timer, known by its name, that was started with no ticks. -/
  | timerWithoutTicks (name : String)
deriving DecidableEq

/-- The wording of a settings fault. -/
def SettingsFault.message : SettingsFault → String
  | .memoryTooSmall size least =>
      "memory size " ++ Numeral.decimal size ++ " is smaller than " ++ Numeral.decimal least
        ++ " bytes"
  | .memoryTooLarge size =>
      "memory size " ++ Numeral.decimal size ++ " is larger than the 16 bit address space"
  | .noStack => "stack depth must be at least 1"
  | .noTicks => "timer frequencies must be above 0Hz"
  | .noRoomForGlyphs size glyphs =>
      Numeral.decimal size ++ " bytes of memory cannot hold the " ++ Numeral.decimal glyphs
        ++ " byte sprite sheets"
  | .timerWithoutTicks name => name ++ " timer frequency must be above 0Hz"

/-! ## All faults -/

/-- What stops the machine. -/
inductive Fault where
  /-- The word fetched from an address is no instruction. -/
  | unsupportedOpcode (opcode address : UInt16)
  /-- An access that starts at an address leaves memory or enters the glyphs. -/
  | outOfBounds (address : UInt16)
  /-- A call with all slots of the call stack taken. -/
  | stackOverflow (depth : Nat)
  /-- A return with no call open. -/
  | stackUnderflow
  /-- A program that reaches beyond the end of memory. -/
  | programTooLong (address : UInt16) (length capacity : Nat)
  /-- Settings that describe no machine. -/
  | badSettings (cause : SettingsFault)
deriving DecidableEq

/-- The wording of a fault. -/
def Fault.message : Fault → String
  | .unsupportedOpcode opcode address =>
      "unsupported opcode " ++ Numeral.upperAddress 4 opcode.toNat ++ " at "
        ++ Numeral.upperAddress 3 address.toNat
  | .outOfBounds address =>
      "memory access out of bounds at address " ++ Numeral.upperAddress 4 address.toNat
  | .stackOverflow depth =>
      "stack overflow: call nested deeper than " ++ Numeral.decimal depth ++ " frames"
  | .stackUnderflow => "stack underflow: return with an empty call stack"
  | .programTooLong address length capacity =>
      "ROM of " ++ Numeral.decimal length ++ " bytes does not fit at "
        ++ Numeral.upperAddress 3 address.toNat ++ " in " ++ Numeral.decimal capacity
        ++ " bytes of memory"
  | .badSettings cause => "invalid configuration: " ++ cause.message

end SuperChip
