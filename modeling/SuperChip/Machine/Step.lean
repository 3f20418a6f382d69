import SuperChip.Instruction.Decode
import SuperChip.Machine
import SuperChip.Surface.Sprite

/-!
# Steps

A *step* is one instruction.  The machine fetches the word at the program
counter, moves the program counter behind it, decodes the word and executes what
it stands for.

A step ends in one of three ways.  It is *done*; it *fails* with a fault; or it
*waits* for a key, which only `FX0A` does.  Whatever was changed before a failure
stays changed: the program counter, once the word was fetched, and the flag
register, which drawing clears before it reads the sprite.

`Machine.step` is one step from its start.  `Machine.perform` executes an
instruction that was issued before; a step that waits is taken up again by
performing what it had issued.
-/

namespace SuperChip

/-! ## Outcomes -/

/-- How an instruction ends. -/
inductive Ending where
  /-- All of it was executed. -/
  | done
  /-- It cannot be executed. -/
  | failed (fault : Fault)
  /-- It waits for a key. -/
  | waiting
deriving DecidableEq

/-- What becomes of a machine that executes an instruction. -/
structure Outcome where
  /-- The machine. -/
  machine : Machine
  /-- How the instruction ends. -/
  ending : Ending
  /-- What it leaves in the journal. -/
  entries : List Journal.Entry
deriving DecidableEq

namespace Outcome

/-- The instruction is done. -/
def done (m : Machine) : Outcome := ⟨m, .done, []⟩

/-- The instruction fails. -/
def failed (m : Machine) (fault : Fault) : Outcome := ⟨m, .failed fault, []⟩

end Outcome

namespace Machine

/-! ## Instructions with more than one case -/

/-- Goes back to behind the last open call. -/
def executeReturn (m : Machine) : Outcome :=
  match m.registers.stack.pop with
  | .ok (address, stack) =>
      .done { m with registers := { m.registers with stack, pc := address } }
  | .error fault => .failed m fault

/-- Keeps the program counter, which is already behind the call, and goes on at
an address. -/
def executeCall (m : Machine) (address : UInt16) : Outcome :=
  match m.registers.stack.push m.pc with
  | .ok stack => .done ({ m with registers := { m.registers with stack } }.goTo address.toNat)
  | .error fault => .failed m fault

/-- Rows and bytes of a row of the sprite that is drawn for a count. -/
def spriteShape (m : Machine) (n : UInt8) : Nat × Nat :=
  if m.surface.extended ∧ n = 0 then (16, 2) else (n.toNat, 1)

/-- Draws a sprite.  The place is read before VF is cleared, so VX and VY may be
VF. -/
def executeDraw (m : Machine) (x y n : UInt8) : Outcome :=
  let (column, row) := ((m.v x).toNat, (m.v y).toNat)
  let (rows, rowBytes) := m.spriteShape n
  let cleared := m.setFlag false
  match cleared.ram.slice cleared.index (rows * rowBytes) with
  | .ok bytes =>
      let (surface, collided) := cleared.surface.blit column row ⟨rowBytes, bytes⟩
      .done ({ cleared with surface }.setFlag collided)
  | .error fault => .failed cleared fault

/-- Looks for a key.  Shutdown also ends the wait, and leaves VX as it is. -/
def executeWait (m : Machine) (x : UInt8) : Outcome :=
  match m.keypad.wait with
  | .key label => .done (m.setV x label)
  | .interrupted => ⟨m, .done, Keypad.Waited.interrupted.entries ++ [.keyNotRead x]⟩
  | .blocked => ⟨m, .waiting, []⟩

/-- Writes bytes to the address register and behind. -/
def executeWrite (m : Machine) (bytes : List UInt8) : Outcome :=
  match m.ram.write m.index bytes with
  | .ok ram => .done { m with ram }
  | .error fault => .failed m fault

/-- Reads V0 to VX from the address register and behind. -/
def executeRead (m : Machine) (x : UInt8) : Outcome :=
  match m.ram.slice m.index (x.toNat + 1) with
  | .ok bytes => .done (m.overlayV bytes)
  | .error fault => .failed m fault

/-- The decimal digits of a byte, hundreds first. -/
def decimalDigits (b : UInt8) : List UInt8 := [b / 100, b / 10 % 10, b % 10]

/-! ## All instructions -/

/-- Executes an instruction with the program counter already behind it.  The
random byte is only looked at by `CXKK`. -/
def execute (m : Machine) (random : UInt8) : Instruction → Outcome
  | .nop => .done m
  | .clear => .done (m.change .clear)
  | .ret => m.executeReturn
  | .scrollDown n => .done (m.change (.down n.toNat))
  | .scrollRight => .done (m.change .right)
  | .scrollLeft => .done (m.change .left)
  | .extend => .done (m.change (.extend true))
  | .shrink => .done (m.change (.extend false))
  | .jump address => .done (m.goTo address.toNat)
  | .call address => m.executeCall address
  | .skipEq x kk => .done (m.skipIf (m.v x == kk))
  | .skipNe x kk => .done (m.skipIf (m.v x != kk))
  | .skipEqReg x y => .done (m.skipIf (m.v x == m.v y))
  | .skipNeReg x y => .done (m.skipIf (m.v x != m.v y))
  | .load x kk => .done (m.setV x kk)
  | .add x kk => .done (m.setV x (m.v x + kk))
  | .move x y => .done (m.setV x (m.v y))
  | .or x y => .done (m.setV x (m.v x ||| m.v y))
  | .and x y => .done (m.setV x (m.v x &&& m.v y))
  | .xor x y => .done (m.setV x (m.v x ^^^ m.v y))
  | .addReg x y => .done (m.setResult x (m.v x + m.v y) (255 < (m.v x).toNat + (m.v y).toNat))
  | .sub x y => .done (m.setResult x (m.v x - m.v y) (m.v y ≤ m.v x))
  | .subN x y => .done (m.setResult x (m.v y - m.v x) (m.v x ≤ m.v y))
  | .shr x => .done (m.setResult x (m.v x >>> 1) (m.v x &&& 0x01 == 0x01))
  | .shl x => .done (m.setResult x (m.v x <<< 1) (m.v x &&& 0x80 == 0x80))
  | .loadIndex address => .done (m.setIndex (m.ram.wrap address.toNat))
  | .jumpIndexed address => .done (m.goTo ((m.v 0).toNat + address.toNat))
  | .random x kk => .done (m.setV x (random &&& kk))
  | .draw x y n => m.executeDraw x y n
  | .skipPressed x => .done (m.skipIf (m.keypad.peek (m.v x)))
  | .skipNotPressed x => .done (m.skipIf (!m.keypad.peek (m.v x)))
  | .loadDelay x => .done (m.setV x m.clocks.delay.count)
  | .waitKey x => m.executeWait x
  | .setDelay x => .done { m with clocks := m.clocks.setDelay (m.v x) }
  | .setSound x => .done { m with clocks := m.clocks.setSound (m.v x) }
  | .addIndex x => .done (m.setIndex (m.ram.wrap (m.index.toNat + (m.v x).toNat)))
  | .glyph x => .done (m.setIndex (Glyphs.smallAt (m.v x)))
  | .largeGlyph x => .done (m.setIndex (Glyphs.largeAt (m.v x)))
  | .bcd x => m.executeWrite (decimalDigits (m.v x))
  | .store x => m.executeWrite (m.registers.v.upTo x)
  | .read x => m.executeRead x
  | .saveFlags x =>
      .done { m with
        registers := { m.registers with saved := m.registers.saved.overlay (m.registers.v.upTo x) } }
  | .loadFlags x => .done (m.overlayV (m.registers.saved.upTo x))

/-! ## Steps -/

/-- What becomes of a machine in a step. -/
structure Step where
  /-- The machine. -/
  machine : Machine
  /-- How the step ends. -/
  ending : Ending
  /-- What it leaves in the journal. -/
  entries : List Journal.Entry
  /-- The instruction it came to, if it came to one. -/
  issued : Option Traced
deriving DecidableEq

/-- What an observer is told about a step: the instruction of a step that is
done, and nothing otherwise. -/
def Step.traced (s : Step) : Option Traced :=
  match s.ending with
  | .done => s.issued
  | _ => none

/-- Executes an issued instruction. -/
def perform (m : Machine) (random : UInt8) (t : Traced) : Step :=
  let outcome := m.execute random t.instruction
  ⟨outcome.machine, outcome.ending, outcome.entries, some t⟩

/-- One step. -/
def step (m : Machine) (random : UInt8) : Step :=
  match m.ram.word m.pc with
  | .error fault => ⟨m, .failed fault, [], none⟩
  | .ok word =>
      match Instruction.decode word m.pc with
      | .error fault => ⟨m.advance, .failed fault, [], none⟩
      | .ok instruction => m.advance.perform random ⟨m.pc, word, instruction⟩

/-- Whether the next step would wait for a key: the word at the program counter
is a key wait, and a wait is blocked. -/
def wouldWait (m : Machine) : Bool :=
  match m.ram.word m.pc with
  | .error _ => false
  | .ok word =>
      match Instruction.decode? word with
      | some (.waitKey _) => m.keypad.wait == .blocked
      | _ => false

/-- A machine with hardly any memory.  It waits for a key, and behind that there is half a
word. -/
def tiny : Machine :=
  ⟨{}, .start 0 1, ⟨#[0xF3, 0x0A, 0x00]⟩, .blank false, .untouched 0, .idle⟩

end Machine

end SuperChip
