import SuperChip.Machine.Step

/-!
# Plain machines

Four of the settings are for those who watch a machine or put programs into it: where a program
is put, how long the machine idles before a fetch and before a look at the keypad, and whether
it reports each instruction.  Settings are *plain* when these four are at zero, and a machine is
plain when its settings and its keypad are.  `Machine.plain` makes any machine plain and keeps
the rest of it.

The plain machine is in lockstep with the machine itself: it executes each instruction to the
same ending, leaves the same in the journal, and what it becomes is the plain form of what the
machine becomes (`Machine.plain_execute`, `Machine.plain_step`).  So what the four settings ask
for is never looked at.
-/

namespace SuperChip

/-! ## Plain forms -/

/-- The settings with the four at zero. -/
def Settings.plain (s : Settings) : Settings :=
  { s with loadAddress := 0, fetchDelay := 0, peekDelay := 0, trace := false }

/-- The keypad with no idle turns. -/
def Keypad.plain (k : Keypad) : Keypad := { k with peekDelay := 0 }

namespace Machine

/-- The machine with plain settings and a plain keypad. -/
def plain (m : Machine) : Machine :=
  { m with settings := m.settings.plain, keypad := m.keypad.plain }

end Machine

/-- An outcome with its machine plain. -/
def Outcome.plain (o : Outcome) : Outcome := { o with machine := o.machine.plain }

/-- A step with its machine plain. -/
def Machine.Step.plain (s : Step) : Step := { s with machine := s.machine.plain }

namespace Machine.Step

variable (s : Step)

/-- A plain step ends as the step does. -/
@[simp] theorem ending_plain : s.plain.ending = s.ending := rfl

@[simp] theorem entries_plain : s.plain.entries = s.entries := rfl

@[simp] theorem issued_plain : s.plain.issued = s.issued := rfl

@[simp] theorem traced_plain : s.plain.traced = s.traced := rfl

end Machine.Step

/-! ## The keypad -/

namespace Keypad

theorem plain_act (k : Keypad) (a : Action) : k.plain.act a = (k.act a).plain := by
  cases a with
  | press position =>
      simp only [act, press]
      split <;> rfl
  | release => rfl
  | shutdown => rfl

end Keypad

namespace Machine

variable (m : Machine)

/-! ## What stays -/

/-- Plain settings keep the ticks of the timers. -/
@[simp] theorem delayHz_plain : m.plain.settings.delayHz = m.settings.delayHz := rfl

@[simp] theorem soundHz_plain : m.plain.settings.soundHz = m.settings.soundHz := rfl

/-- A plain machine has the registers of the machine. -/
@[simp] theorem registers_plain : m.plain.registers = m.registers := rfl

@[simp] theorem ram_plain : m.plain.ram = m.ram := rfl

@[simp] theorem pc_plain : m.plain.pc = m.pc := rfl

@[simp] theorem index_plain : m.plain.index = m.index := rfl

/-- A plain keypad answers a wait as the keypad does. -/
@[simp] theorem wait_plain : m.plain.keypad.wait = m.keypad.wait := rfl

@[simp] theorem spriteShape_plain (n : UInt8) : m.plain.spriteShape n = m.spriteShape n := rfl

theorem plain_setFlag (flag : Bool) : m.plain.setFlag flag = (m.setFlag flag).plain := rfl

/-- A plain machine moves on in lockstep. -/
theorem plain_advance : m.plain.advance = m.advance.plain := rfl

/-! ## From outside -/

theorem plain_act (a : Keypad.Action) : m.plain.act a = (m.act a).plain := by
  simp only [act, plain, Keypad.plain_act]

/-- Acting on the keypad of a plain machine comes to the plain form. -/
theorem plain_actAll (actions : List Keypad.Action) :
    ∀ m : Machine, actions.foldl act m.plain = (actions.foldl act m).plain := by
  induction actions with
  | nil => exact fun _ => rfl
  | cons a actions ih =>
      intro m
      rw [List.foldl_cons, List.foldl_cons, plain_act, ih]

/-! ## Instructions with more than one case -/

/-- A plain machine skips in lockstep. -/
theorem plain_skipIf (condition : Bool) :
    m.plain.skipIf condition = (m.skipIf condition).plain := by
  cases condition <;> rfl

/-- A plain machine returns in lockstep. -/
theorem plain_executeReturn : m.plain.executeReturn = m.executeReturn.plain := by
  simp only [executeReturn, registers_plain]
  split <;> rfl

/-- A plain machine calls in lockstep. -/
theorem plain_executeCall (address : UInt16) :
    m.plain.executeCall address = (m.executeCall address).plain := by
  simp only [executeCall, registers_plain, pc_plain]
  split <;> rfl

/-- A plain machine draws in lockstep. -/
theorem plain_executeDraw (x y n : UInt8) :
    m.plain.executeDraw x y n = (m.executeDraw x y n).plain := by
  simp only [executeDraw, plain_setFlag, ram_plain, index_plain, spriteShape_plain]
  split <;> rfl

/-- A plain machine waits in lockstep, since idle turns are not looked at. -/
theorem plain_executeWait (x : UInt8) :
    m.plain.executeWait x = (m.executeWait x).plain := by
  simp only [executeWait, wait_plain]
  split <;> rfl

/-- A plain machine writes in lockstep. -/
theorem plain_executeWrite (bytes : List UInt8) :
    m.plain.executeWrite bytes = (m.executeWrite bytes).plain := by
  simp only [executeWrite, ram_plain, index_plain]
  split <;> rfl

/-- A plain machine reads registers in lockstep. -/
theorem plain_executeRead (x : UInt8) :
    m.plain.executeRead x = (m.executeRead x).plain := by
  simp only [executeRead, ram_plain, index_plain]
  split <;> rfl

/-! ## All instructions -/

/-- A plain machine executes an instruction in lockstep with the machine itself. -/
theorem plain_execute (random : UInt8) (i : Instruction) :
    m.plain.execute random i = (m.execute random i).plain := by
  cases i with
  | ret => exact m.plain_executeReturn
  | call address => exact m.plain_executeCall address
  | skipEq | skipNe | skipEqReg | skipNeReg | skipPressed | skipNotPressed =>
      exact congrArg Outcome.done (m.plain_skipIf _)
  | draw x y n => exact m.plain_executeDraw x y n
  | waitKey x => exact m.plain_executeWait x
  | bcd | store => exact m.plain_executeWrite _
  | read x => exact m.plain_executeRead x
  | _ => rfl

/-- A plain machine executes an issued instruction in lockstep. -/
theorem plain_perform (random : UInt8) (t : Traced) :
    m.plain.perform random t = (m.perform random t).plain := by
  simp only [perform, plain_execute]
  rfl

/-- A plain machine takes a step in lockstep with the machine itself. -/
theorem plain_step (random : UInt8) : m.plain.step random = (m.step random).plain := by
  simp only [step, ram_plain, pc_plain, plain_advance, plain_perform]
  split
  next => rfl
  next => split <;> rfl

/-- A plain machine takes a program in where the machine itself does. -/
theorem plain_load (address : UInt16) (program : List UInt8) :
    m.plain.load address program =
      (m.load address program).map fun (machine, entries) => (machine.plain, entries) := by
  simp only [load, ram_plain]
  split <;> rfl

end Machine

end SuperChip
