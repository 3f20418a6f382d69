import SuperChip.Machine.Step
import SuperChip.Ram.Guarded
import SuperChip.Surface.Guarded

/-!
# The guarded machine

Steps and loads once more, made of guarded operations only: registers are read by
numbers that name one, slots of the call stack are there, copies go between runs of
one length, nothing is divided by zero, and no number outgrows the width that is kept
for it.  Where an instruction wraps around on purpose, the arithmetic of registers for
instance, there is nothing to guard.

Each of them has the result of its counterpart without guards, or none.
-/

namespace SuperChip

/-! ## Registers -/

namespace Bank.Guarded

/-- The byte of a number. -/
def read (b : Bank) (x : UInt8) : Option UInt8 := Guard.cell b.cells.toArray x.toNat

/-- Replaces the byte of a number. -/
def write (b : Bank) (x value : UInt8) : Option Bank :=
  if x.toNat < 16 then some (b.write x value) else none

/-- The bytes in front of a number. -/
def before (b : Bank) (count : Nat) : Option (List UInt8) :=
  (Guard.span b.cells.toArray 0 count).map Array.toList

/-- Replaces the bytes in front of a number by as many. -/
def overlay (b : Bank) (count : Nat) (bytes : List UInt8) : Option Bank :=
  if count ≤ 16 ∧ bytes.length = count then some (b.overlay bytes) else none

end Bank.Guarded

/-! ## The call stack -/

namespace CallStack.Guarded

/-- Takes the next slot for an address. -/
def push (s : CallStack) (address : UInt16) : Option (Except Fault CallStack) := do
  if s.used < s.slots.size then
    return .ok ⟨← Guard.replace s.slots s.used address, ← Guard.held64 (s.used + 1)⟩
  else return .error (.stackOverflow s.used)

/-- Gives up the slot taken last, and says which address is in it. -/
def pop (s : CallStack) : Option (Except Fault (UInt16 × CallStack)) := do
  if s.used = 0 then return .error .stackUnderflow
  else
    let used ← Guard.difference s.used 1
    return .ok (← Guard.cell s.slots used, { s with used })

end CallStack.Guarded

namespace Machine.Guarded

/-! ## Parts of instructions -/

/-- The content of VX. -/
def v (m : Machine) (x : UInt8) : Option UInt8 := Bank.Guarded.read m.registers.v x

/-- Replaces the content of VX. -/
def setV (m : Machine) (x value : UInt8) : Option Machine := do
  return { m with
    registers := { m.registers with v := ← Bank.Guarded.write m.registers.v x value } }

/-- Writes one or zero into VF. -/
def setFlag (m : Machine) (on : Bool) : Option Machine := setV m flagRegister (if on then 1 else 0)

/-- Puts a result into VX and then a flag into VF. -/
def setResult (m : Machine) (x value : UInt8) (flag : Bool) : Option Machine := do
  setFlag (← setV m x value) flag

/-- Goes on at a wrapped address. -/
def goTo (m : Machine) (n : Nat) : Option Machine := do
  return m.setPc (← Ram.Guarded.wrap m.ram n)

/-- Moves the program counter behind one word. -/
def advance (m : Machine) : Option Machine := do goTo m (← Guard.held64 (m.pc.toNat + 2))

/-- Moves the program counter behind one more word if a condition holds. -/
def skipIf (m : Machine) (condition : Bool) : Option Machine :=
  if condition then advance m else some m

/-- Puts a wrapped address into the address register. -/
def setIndex (m : Machine) (n : Nat) : Option Machine := do
  return m.setIndex (← Ram.Guarded.wrap m.ram n)

/-- The address of the glyph of the low half of a byte, in a sheet of glyphs. -/
def glyphAt (start stride : Nat) (digit : UInt8) : Option UInt16 := do
  let place ← Guard.held16 (digit.toNat % 16 * stride)
  return UInt16.ofNat (← Guard.held16 (start + place))

/-- How many registers there are up to VX. -/
def countTo (x : UInt8) : Option Nat := Guard.held64 (x.toNat + 1)

/-- Changes the surface. -/
def change (m : Machine) (c : Surface.Change) : Option Machine := do
  return { m with surface := ← Surface.Guarded.change m.surface c }

/-- The label of the key at a position. -/
def label (position : Nat) : Option UInt8 := Guard.cell Keypad.labels.toArray position

/-! ## Instructions with more than one case -/

/-- Goes back to behind the last open call. -/
def executeReturn (m : Machine) : Option Outcome := do
  match ← CallStack.Guarded.pop m.registers.stack with
  | .ok (address, stack) =>
      return .done { m with registers := { m.registers with stack, pc := address } }
  | .error fault => return .failed m fault

/-- Keeps the program counter and goes on at an address. -/
def executeCall (m : Machine) (address : UInt16) : Option Outcome := do
  match ← CallStack.Guarded.push m.registers.stack m.pc with
  | .ok stack =>
      return .done (← goTo { m with registers := { m.registers with stack } } address.toNat)
  | .error fault => return .failed m fault

/-- Draws a sprite. -/
def executeDraw (m : Machine) (x y n : UInt8) : Option Outcome := do
  let column ← v m x
  let row ← v m y
  let (rows, rowBytes) := m.spriteShape n
  let cleared ← setFlag m false
  match ← Ram.Guarded.slice cleared.ram cleared.index (← Guard.held64 (rows * rowBytes)) with
  | .error fault => return .failed cleared fault
  | .ok bytes =>
      let (surface, collided) ←
        Surface.Guarded.blit cleared.surface column.toNat row.toNat rowBytes bytes.toList
      return .done (← setFlag { cleared with surface } collided)

/-- Looks for a key. -/
def executeWait (m : Machine) (x : UInt8) : Option Outcome := do
  if m.keypad.isShutdown then
    return ⟨m, .done, Keypad.Waited.interrupted.entries ++ [.keyNotRead x]⟩
  else match m.keypad.held with
    | some position => return .done (← setV m x (← label position))
    | none => return ⟨m, .waiting, []⟩

/-- Writes bytes to the address register and behind. -/
def executeWrite (m : Machine) (bytes : List UInt8) : Option Outcome := do
  match ← Ram.Guarded.write m.ram m.index bytes with
  | .ok ram => return .done { m with ram }
  | .error fault => return .failed m fault

/-- Reads V0 to VX from the address register and behind. -/
def executeRead (m : Machine) (x : UInt8) : Option Outcome := do
  let count ← countTo x
  match ← Ram.Guarded.slice m.ram m.index count with
  | .error fault => return .failed m fault
  | .ok bytes =>
      let v ← Bank.Guarded.overlay m.registers.v count bytes.toList
      return .done { m with registers := { m.registers with v } }

/-- Copies V0 to VX into the saved flags. -/
def executeSave (m : Machine) (x : UInt8) : Option Outcome := do
  let count ← countTo x
  let bytes ← Bank.Guarded.before m.registers.v count
  let saved ← Bank.Guarded.overlay m.registers.saved count bytes
  return .done { m with registers := { m.registers with saved } }

/-- Copies V0 to VX from the saved flags. -/
def executeRestore (m : Machine) (x : UInt8) : Option Outcome := do
  let count ← countTo x
  let bytes ← Bank.Guarded.before m.registers.saved count
  let v ← Bank.Guarded.overlay m.registers.v count bytes
  return .done { m with registers := { m.registers with v } }

/-! ## All instructions -/

/-- Executes an instruction with the program counter already behind it. -/
def execute (m : Machine) (random : UInt8) : Instruction → Option Outcome
  | .nop => return .done m
  | .clear => return .done (← change m .clear)
  | .ret => executeReturn m
  | .scrollDown n => return .done (← change m (.down n.toNat))
  | .scrollRight => return .done (← change m .right)
  | .scrollLeft => return .done (← change m .left)
  | .extend => return .done (← change m (.extend true))
  | .shrink => return .done (← change m (.extend false))
  | .jump address => return .done (← goTo m address.toNat)
  | .call address => executeCall m address
  | .skipEq x kk => return .done (← skipIf m ((← v m x) == kk))
  | .skipNe x kk => return .done (← skipIf m ((← v m x) != kk))
  | .skipEqReg x y => return .done (← skipIf m ((← v m x) == (← v m y)))
  | .skipNeReg x y => return .done (← skipIf m ((← v m x) != (← v m y)))
  | .load x kk => return .done (← setV m x kk)
  | .add x kk => return .done (← setV m x ((← v m x) + kk))
  | .move x y => return .done (← setV m x (← v m y))
  | .or x y => return .done (← setV m x ((← v m x) ||| (← v m y)))
  | .and x y => return .done (← setV m x ((← v m x) &&& (← v m y)))
  | .xor x y => return .done (← setV m x ((← v m x) ^^^ (← v m y)))
  | .addReg x y => do
      let a ← v m x
      let b ← v m y
      return .done (← setResult m x (a + b) (255 < a.toNat + b.toNat))
  | .sub x y => do
      let a ← v m x
      let b ← v m y
      return .done (← setResult m x (a - b) (b ≤ a))
  | .subN x y => do
      let a ← v m x
      let b ← v m y
      return .done (← setResult m x (b - a) (a ≤ b))
  | .shr x => do
      let a ← v m x
      return .done (← setResult m x (a >>> 1) (a &&& 0x01 == 0x01))
  | .shl x => do
      let a ← v m x
      return .done (← setResult m x (a <<< 1) (a &&& 0x80 == 0x80))
  | .loadIndex address => return .done (← setIndex m address.toNat)
  | .jumpIndexed address => do
      return .done (← goTo m (← Guard.held64 ((← v m 0).toNat + address.toNat)))
  | .random x kk => return .done (← setV m x (random &&& kk))
  | .draw x y n => executeDraw m x y n
  | .skipPressed x => return .done (← skipIf m (m.keypad.peek (← v m x)))
  | .skipNotPressed x => return .done (← skipIf m (!m.keypad.peek (← v m x)))
  | .loadDelay x => return .done (← setV m x m.clocks.delay.count)
  | .waitKey x => executeWait m x
  | .setDelay x => return .done { m with clocks := m.clocks.setDelay (← v m x) }
  | .setSound x => return .done { m with clocks := m.clocks.setSound (← v m x) }
  | .addIndex x => do
      return .done (← setIndex m (← Guard.held64 (m.index.toNat + (← v m x).toNat)))
  | .glyph x => do
      return .done (m.setIndex (← glyphAt Glyphs.smallStart Glyphs.smallStride (← v m x)))
  | .largeGlyph x => do
      return .done (m.setIndex (← glyphAt Glyphs.largeStart Glyphs.largeStride (← v m x)))
  | .bcd x => do executeWrite m (decimalDigits (← v m x))
  | .store x => do executeWrite m (← Bank.Guarded.before m.registers.v (← countTo x))
  | .read x => executeRead m x
  | .saveFlags x => executeSave m x
  | .loadFlags x => executeRestore m x

/-! ## New machines, steps and loads -/

/-- A machine that has executed nothing. -/
def build (settings : Settings) : Option (Except Fault Machine) := do
  match settings.check with
  | .error fault => return .error fault
  | .ok () =>
      match ← Ram.Guarded.build settings.memorySize with
      | .error fault => return .error fault
      | .ok ram =>
          return .ok ⟨settings, .start settings.entry settings.stackDepth, ram,
            ← Surface.Guarded.extend false, settings.keypad, .idle⟩

/-- Executes an issued instruction. -/
def perform (m : Machine) (random : UInt8) (t : Traced) : Option Step := do
  let outcome ← execute m random t.instruction
  return ⟨outcome.machine, outcome.ending, outcome.entries, some t⟩

/-- One step. -/
def step (m : Machine) (random : UInt8) : Option Step := do
  match ← Ram.Guarded.word m.ram m.pc with
  | .error fault => return ⟨m, .failed fault, [], none⟩
  | .ok word =>
      let advanced ← advance m
      match Instruction.decode word m.pc with
      | .error fault => return ⟨advanced, .failed fault, [], none⟩
      | .ok instruction => perform advanced random ⟨m.pc, word, instruction⟩

/-- Puts a program into memory. -/
def load (m : Machine) (address : UInt16) (program : List UInt8) :
    Option (Except Fault (Machine × List Journal.Entry)) := do
  match ← Ram.Guarded.load m.ram address program with
  | .ok ram => return .ok ({ m with ram }, [.loaded program.length address])
  | .error fault => return .error fault

end Machine.Guarded

end SuperChip
