import SuperChip.Proofs.Machine.Frame
import SuperChip.Proofs.Surface.Blit

/-!
# What an instruction does to a part

Where a part is in the footprint of an instruction, the frame says nothing about it.
The lemmas here do.  Memory keeps its size, the surface stays full, and the call stack
gains one open call by a call and loses one by a return.  The program counter goes to
a wrapped address, or back to the address of the call that was closed.
-/

namespace SuperChip.Machine

/-! ## Memory and surface -/

theorem size_executeWrite (m : Machine) (bytes : List UInt8) :
    (m.executeWrite bytes).machine.ram.size = m.ram.size := by
  unfold executeWrite
  split
  next ram h => exact Ram.size_write h
  next => rfl

/-- Memory never changes its size. -/
theorem size_execute (m : Machine) (random : UInt8) (i : Instruction) :
    (m.execute random i).machine.ram.size = m.ram.size := by
  cases i with
  | bcd x => exact size_executeWrite m _
  | store x => exact size_executeWrite m _
  | _ =>
      refine congrArg Ram.size (same_execute (p := .ram) random ?_)
      simp [Instruction.footprint]

theorem full_executeDraw {m : Machine} (h : m.surface.Full) (x y n : UInt8) :
    (m.executeDraw x y n).machine.surface.Full := by
  unfold executeDraw
  dsimp only
  split
  · exact Surface.full_blit h _ _ _
  · exact h

/-- The surface stays full. -/
theorem full_execute {m : Machine} (h : m.surface.Full) (random : UInt8) (i : Instruction) :
    (m.execute random i).machine.surface.Full := by
  cases i with
  | clear | scrollDown | scrollRight | scrollLeft | extend | shrink => exact Surface.full_change h _
  | draw x y n => exact full_executeDraw h x y n
  | _ =>
      refine (congrArg Surface.Full (same_execute (p := .surface) random ?_)).mpr h
      simp [Instruction.footprint]

/-! ## The call stack -/

/-- The stack of a machine after a return: one open call less, or the stack as it is. -/
theorem stack_executeReturn (m : Machine) :
    (∃ address, m.registers.stack.pop = .ok (address, m.executeReturn.machine.registers.stack) ∧
        m.executeReturn.machine.pc = address) ∨
      m.executeReturn.machine = m := by
  unfold executeReturn
  split
  next address stack e => exact .inl ⟨address, e, rfl⟩
  next => exact .inr rfl

/-- The stack of a machine after a call: one open call more, or the stack as it is. -/
theorem stack_executeCall (m : Machine) (address : UInt16) :
    (m.registers.stack.push m.pc = .ok (m.executeCall address).machine.registers.stack ∧
        (m.executeCall address).machine.pc = m.ram.wrap address.toNat) ∨
      (m.executeCall address).machine = m := by
  unfold executeCall
  split
  next stack e => exact .inl ⟨e, rfl⟩
  next => exact .inr rfl

end SuperChip.Machine
