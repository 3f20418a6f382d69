import SuperChip.Fault
import SuperChip.Glyphs
import SuperChip.Text.Record

/-!
# Settings

The settings of one machine: how much memory and stack it has, where a program
is put and started, how often its two timers tick, how long it idles before a
fetch and before a look at the keypad, and whether it reports each instruction.

`Settings.check` decides whether a machine can be built from them.  The checks
stand in a fixed order and the first one that fails is reported.
-/

namespace SuperChip

/-- The settings of one machine.  The defaults are those of a stock machine. -/
structure Settings where
  /-- Bytes of memory, the glyphs included. -/
  memorySize : Nat := 4096
  /-- Return addresses the call stack holds. -/
  stackDepth : Nat := 24
  /-- The address a program starts at. -/
  entry : UInt16 := 0x200
  /-- The address a program is put at. -/
  loadAddress : UInt16 := 0x200
  /-- Ticks of the delay timer in a second. -/
  delayHz : UInt32 := 60
  /-- Ticks of the sound timer in a second. -/
  soundHz : UInt32 := 60
  /-- Idle turns before each fetch. -/
  fetchDelay : UInt32 := 0
  /-- Idle turns before each look at the keypad. -/
  peekDelay : UInt32 := 0
  /-- Whether each instruction is reported in the journal. -/
  trace : Bool := false
deriving DecidableEq

namespace Settings

/-- The least memory: the glyphs and one instruction. -/
def leastMemory : Nat := Glyphs.reservedEnd + 2

/-- The most memory a sixteen bit address reaches. -/
def mostMemory : Nat := 0x10000

/-- Why no machine can be built from the settings, if none can. -/
def fault? (s : Settings) : Option SettingsFault :=
  if s.memorySize < leastMemory then some (.memoryTooSmall s.memorySize leastMemory)
  else if mostMemory < s.memorySize then some (.memoryTooLarge s.memorySize)
  else if s.stackDepth = 0 then some .noStack
  else if s.delayHz = 0 ∨ s.soundHz = 0 then some .noTicks
  else none

/-- Accepts the settings from which a machine can be built. -/
def check (s : Settings) : Except Fault Unit :=
  match s.fault? with
  | some cause => .error (.badSettings cause)
  | none => .ok ()

/-- The settings written as a record. -/
def describe (s : Settings) : String :=
  Record.named "Config"
    [("memory_size", Numeral.decimal s.memorySize),
     ("stack_depth", Numeral.decimal s.stackDepth),
     ("entry", Numeral.decimal s.entry.toNat),
     ("load_address", Numeral.decimal s.loadAddress.toNat),
     ("delay_hz", Numeral.decimal s.delayHz.toNat),
     ("sound_hz", Numeral.decimal s.soundHz.toNat),
     ("fetch_delay", Numeral.decimal s.fetchDelay.toNat),
     ("peek_delay", Numeral.decimal s.peekDelay.toNat),
     ("trace", Record.truth s.trace)]

end Settings

end SuperChip
