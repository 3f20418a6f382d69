import SuperChip.Instruction.Traced

/-!
# The journal

A machine keeps a journal of what it and its devices do.  An entry says what
happened; its level and its wording follow from that.
-/

namespace SuperChip.Journal

/-- How much an entry matters. -/
inductive Level where
  /-- One executed instruction. -/
  | trace
  /-- The normal course of things. -/
  | debug
  /-- Something cut short. -/
  | warn
deriving DecidableEq

/-- The name of a level. -/
def Level.name : Level → String
  | .trace => "TRACE"
  | .debug => "DEBUG"
  | .warn => "WARN"

/-- Something worth a line. -/
inductive Entry where
  /-- A program was put at an address. -/
  | loaded (length : Nat) (address : UInt16)
  /-- A timer was started. -/
  | timerStarted (name : String) (hz : UInt32)
  /-- Both timers were stopped. -/
  | timersStopped
  /-- A timer that ends had been brought down by its callback. -/
  | callbackFailed
  /-- A program is run from an address. -/
  | running (entry : UInt16)
  /-- A run ended at an address. -/
  | stoppedAt (pc : UInt16)
  /-- Shutdown ended a wait for a key. -/
  | waitInterrupted
  /-- Shutdown ended the wait of an instruction for a key in VX. -/
  | keyNotRead (x : UInt8)
  /-- The bell was switched on. -/
  | powerOn
  /-- The bell was switched off. -/
  | powerOff
  /-- An instruction was executed. -/
  | executed (traced : Traced)
deriving DecidableEq

namespace Entry

/-- The level of an entry. -/
def level : Entry → Level
  | .executed _ => .trace
  | .callbackFailed | .keyNotRead _ => .warn
  | _ => .debug

/-- The wording of an entry. -/
def text : Entry → String
  | .loaded length address =>
      "loaded " ++ Numeral.decimal length ++ " bytes at " ++ Numeral.lowerAddress 3 address.toNat
  | .timerStarted name hz =>
      "started " ++ name ++ " timer at " ++ Numeral.decimal hz.toNat ++ "Hz"
  | .timersStopped => "stopped timers"
  | .callbackFailed => "timer callback panicked"
  | .running entry => "running from " ++ Numeral.lowerAddress 3 entry.toNat
  | .stoppedAt pc => "stopped at " ++ Numeral.lowerAddress 3 pc.toNat
  | .waitInterrupted => "key wait interrupted by shutdown"
  | .keyNotRead x => "shutdown while waiting for a key in V" ++ Numeral.upperHex 1 x.toNat
  | .powerOn => "power on"
  | .powerOff => "power off"
  | .executed traced => traced.line

/-- The line of an entry: its level, then its wording. -/
def line (e : Entry) : String := e.level.name ++ " " ++ e.text

end Entry

end SuperChip.Journal
