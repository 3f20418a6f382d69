import SuperChip.Clocks
import SuperChip.Keypad
import SuperChip.Ram
import SuperChip.Registers
import SuperChip.Settings
import SuperChip.Surface

/-!
# The machine

A machine is its registers, its memory, the surface it draws on, its keypad and
its two timers.  It is built from settings, which it keeps and never changes.

Addresses that a program puts into the program counter or into the address
register are wrapped into memory.  Two things put an address there as it is: the
settings, for the program counter of a new machine, and a return, which takes
back what a call kept.
-/

namespace SuperChip

/-- A machine. -/
structure Machine where
  /-- What it was built from. -/
  settings : Settings
  /-- Its registers and call stack. -/
  registers : Registers
  /-- Its memory. -/
  ram : Ram
  /-- The surface it draws on. -/
  surface : Surface
  /-- Its keypad. -/
  keypad : Keypad
  /-- Its timers. -/
  clocks : Clocks
deriving DecidableEq

namespace Machine

/-- A machine that has executed nothing, with a blank small surface, no key held
and its timers not yet started. -/
def build (settings : Settings) : Except Fault Machine := do
  settings.check
  let ram ← Ram.build settings.memorySize
  return {
    settings
    registers := .start settings.entry settings.stackDepth
    ram
    surface := .blank false
    keypad := settings.keypad
    clocks := .idle }

/-! ## Registers -/

/-- The content of VX. -/
def v (m : Machine) (x : UInt8) : UInt8 := m.registers.v.read x

/-- Replaces the content of VX. -/
def setV (m : Machine) (x value : UInt8) : Machine :=
  { m with registers := { m.registers with v := m.registers.v.write x value } }

/-- Writes one or zero into VF. -/
def setFlag (m : Machine) (on : Bool) : Machine :=
  { m with registers := m.registers.setFlag on }

/-- Puts a result into VX and then a flag into VF, so that the flag is what stays
when X is F. -/
def setResult (m : Machine) (x value : UInt8) (flag : Bool) : Machine :=
  (m.setV x value).setFlag flag

/-- The program counter. -/
def pc (m : Machine) : UInt16 := m.registers.pc

/-- Puts an address into the program counter as it is. -/
def setPc (m : Machine) (address : UInt16) : Machine :=
  { m with registers := { m.registers with pc := address } }

/-- Goes on at a wrapped address. -/
def goTo (m : Machine) (n : Nat) : Machine := m.setPc (m.ram.wrap n)

/-- Moves the program counter behind one word. -/
def advance (m : Machine) : Machine := m.goTo (m.pc.toNat + 2)

/-- Moves the program counter behind one more word if a condition holds. -/
def skipIf (m : Machine) (condition : Bool) : Machine := if condition then m.advance else m

/-- The address register. -/
def index (m : Machine) : UInt16 := m.registers.index

/-- Puts an address into the address register as it is. -/
def setIndex (m : Machine) (address : UInt16) : Machine :=
  { m with registers := { m.registers with index := address } }

/-- Replaces the first V registers. -/
def overlayV (m : Machine) (bytes : List UInt8) : Machine :=
  { m with registers := { m.registers with v := m.registers.v.overlay bytes } }

/-! ## From outside -/

/-- Puts a program into memory; with it comes what that leaves in the journal. -/
def load (m : Machine) (address : UInt16) (program : List UInt8) :
    Except Fault (Machine × List Journal.Entry) :=
  match m.ram.load address program with
  | .ok ram => .ok ({ m with ram }, [.loaded program.length address])
  | .error fault => .error fault

/-- Changes the surface. -/
def change (m : Machine) (c : Surface.Change) : Machine :=
  { m with surface := m.surface.change c }

/-- Does something on the keypad. -/
def act (m : Machine) (a : Keypad.Action) : Machine := { m with keypad := m.keypad.act a }

end Machine

end SuperChip
