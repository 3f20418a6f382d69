import SuperChip.Machine.Guarded
import SuperChip.Proofs.Guarded.Blit
import SuperChip.Proofs.Guarded.Ram
import SuperChip.Proofs.Machine.Stage

/-!
# The guarded machine has results

In a sound machine no guard fails.  The lemmas go up from the registers and the call
stack over the parts of instructions to all instructions (`execute_eq`), steps
(`step_eq`), loads (`load_eq`) and new machines (`build_eq`).

Two things are asked for besides soundness.  An instruction may only name registers that
there are, as all do that words stand for; and the call stack may only be as deep as a
number of 64 bits says.
-/

namespace SuperChip

/-! ## Registers -/

namespace Bank.Guarded

variable {b : Bank} {x : UInt8}

/-- A register that there is can be read. -/
theorem read_eq (h : x.toNat < 16) : read b x = some (b.read x) := by
  have hs : x.toNat < b.cells.toArray.size := lt_of_lt_of_eq h b.cells.size_toArray.symm
  rw [read, Bank.read, Guard.cell, Array.getElem?_eq_getElem hs, Vector.getElem?_eq_getElem h]
  rfl

/-- A register that there is can be written. -/
theorem write_eq (h : x.toNat < 16) (value : UInt8) : write b x value = some (b.write x value) :=
  if_pos h

/-- The registers up to one that there is can be cut out. -/
theorem before_eq (h : x.toNat < 16) : before b (x.toNat + 1) = some (b.upTo x) := by
  have hs : x.toNat + 1 ≤ b.cells.toArray.size := le_of_le_of_eq h b.cells.size_toArray.symm
  rw [before, Guard.span_of_le (Nat.zero_le _) hs, upTo, Bank.toList, Vector.toList]
  simp

/-- As many bytes as are asked for can be laid over the first registers. -/
theorem overlay_eq {count : Nat} {bytes : List UInt8} (h : count ≤ 16)
    (hl : bytes.length = count) : overlay b count bytes = some (b.overlay bytes) := if_pos ⟨h, hl⟩

end Bank.Guarded

/-! ## The call stack -/

namespace CallStack.Guarded

variable {s : CallStack}

/-- Where the slots of a stack can be counted, so can its addresses. -/
theorem push_eq (h : s.depth < UInt64.size) (address : UInt16) :
    push s address = some (s.push address) := by
  unfold push CallStack.push
  unfold depth at h
  split
  next hu =>
    have hheld : Guard.held64 (s.used + 1) = some (s.used + 1) := Guard.held_of_lt (by omega)
    simp only [Guard.replace_of_lt hu, hheld, bind, Option.bind]
    rfl
  next => rfl

/-- A stack that fits pops from a slot that there is. -/
theorem pop_eq (h : s.Fits) : pop s = some s.pop := by
  unfold pop CallStack.pop
  split
  · rfl
  next hu =>
    have hpos : 1 ≤ s.used := Nat.pos_of_ne_zero hu
    unfold Fits depth at h
    have hl : s.used - 1 < s.slots.size := by omega
    simp only [Guard.difference_of_le hpos, Guard.cell, Array.getElem?_eq_getElem hl, bind,
      Option.bind]
    rfl

end CallStack.Guarded

namespace Machine.Guarded

variable {m : Machine} {settings : Settings} {x y : UInt8}

/-! ## Parts of instructions -/

theorem v_eq (h : x.toNat < 16) : v m x = some (m.v x) := Bank.Guarded.read_eq h

theorem setV_eq (h : x.toNat < 16) (value : UInt8) : setV m x value = some (m.setV x value) := by
  rw [setV, Bank.Guarded.write_eq h]
  rfl

theorem setFlag_eq (on : Bool) : setFlag m on = some (m.setFlag on) := by
  rw [setFlag, setV_eq (by decide)]
  rfl

/-- A result and its flag can be put into registers that there are. -/
theorem setResult_eq (h : x.toNat < 16) (value : UInt8) (flag : Bool) :
    setResult m x value flag = some (m.setResult x value flag) := by
  rw [setResult, setV_eq h]
  exact setFlag_eq flag

/-- Where there is memory the program counter can be wrapped. -/
theorem goTo_eq (h : 0 < m.ram.size) (n : Nat) : goTo m n = some (m.goTo n) := by
  rw [goTo, Ram.Guarded.wrap_eq h]
  rfl

/-- Where there is memory the program counter can move on. -/
theorem advance_eq (h : 0 < m.ram.size) : advance m = some m.advance := by
  rw [advance, Guard.held64_end m.pc (by decide)]
  exact goTo_eq h _

/-- Where there is memory the program counter can skip. -/
theorem skipIf_eq (h : 0 < m.ram.size) (condition : Bool) :
    skipIf m condition = some (m.skipIf condition) := by
  cases condition with
  | true => exact advance_eq h
  | false => rfl

/-- Where there is memory the address register can be wrapped. -/
theorem setIndex_eq (h : 0 < m.ram.size) (n : Nat) :
    setIndex m n = some (m.setIndex (m.ram.wrap n)) := by
  rw [setIndex, Ram.Guarded.wrap_eq h]
  rfl

/-- A sheet of sixteen glyphs that ends below the end of 16 bit addresses. -/
theorem glyphAt_eq {start stride : Nat} (h : start + 16 * stride < UInt16.size) (digit : UInt8) :
    glyphAt start stride digit = some (UInt16.ofNat (start + digit.toNat % 16 * stride)) := by
  have hd : digit.toNat % 16 ≤ 16 := Nat.le_of_lt (Nat.mod_lt _ (by decide))
  have hm := Nat.mul_le_mul_right stride hd
  have hplace : Guard.held16 (digit.toNat % 16 * stride) = some (digit.toNat % 16 * stride) :=
    Guard.held_of_lt (by omega)
  have hsum : Guard.held16 (start + digit.toNat % 16 * stride) =
      some (start + digit.toNat % 16 * stride) := Guard.held_of_lt (by omega)
  simp only [glyphAt, hplace, hsum, bind, Option.bind]
  rfl

/-- The count of the registers up to any number does not overflow. -/
theorem countTo_eq (x : UInt8) : countTo x = some (x.toNat + 1) := by
  have := x.toNat_lt
  exact Guard.held64_of_lt (by omega)

/-- What is done to a full surface stays within its pixels. -/
theorem change_eq (h : m.surface.Full) (c : Surface.Change) : change m c = some (m.change c) := by
  rw [change, Surface.Guarded.change_eq h]
  rfl

/-- Every position of the keypad has a label. -/
theorem label_eq (position : Fin 16) : label position = some (Keypad.labels.get position) := by
  rw [label, Guard.cell, Array.getElem?_eq_getElem position.isLt]
  rfl

/-! ## Instructions with more than one case -/

/-- A return passes all its guards when the stack fits. -/
theorem executeReturn_eq (h : m.registers.stack.Fits) : executeReturn m = some m.executeReturn := by
  rw [executeReturn, CallStack.Guarded.pop_eq h, Machine.executeReturn]
  cases m.registers.stack.pop <;> rfl

/-- A call passes all its guards when the stack can be counted and there is memory. -/
theorem executeCall_eq (h : m.registers.stack.depth < UInt64.size) (hs : 0 < m.ram.size)
    (address : UInt16) : executeCall m address = some (m.executeCall address) := by
  rw [executeCall, CallStack.Guarded.push_eq h, Machine.executeCall]
  cases m.registers.stack.push m.pc with
  | error fault => rfl
  | ok stack =>
      simp only [bind, Option.bind]
      rw [goTo_eq (by exact hs)]
      rfl

/-- The sprite that is drawn has rows, and not many bytes. -/
theorem spriteShape_bounds (m : Machine) (n : UInt8) :
    0 < (m.spriteShape n).2 ∧ (m.spriteShape n).2 ≤ 256 ∧
      (m.spriteShape n).1 * (m.spriteShape n).2 ≤ 256 := by
  have hn := n.toNat_lt
  unfold spriteShape
  split
  · exact ⟨by decide, by decide, by decide⟩
  · refine ⟨Nat.one_pos, ?_, ?_⟩
    · show 1 ≤ 256
      decide
    · show n.toNat * 1 ≤ 256
      omega

/-- A draw passes all its guards on a full surface. -/
theorem executeDraw_eq (h : m.surface.Full) (hx : x.toNat < 16) (hy : y.toNat < 16) (n : UInt8) :
    executeDraw m x y n = some (m.executeDraw x y n) := by
  obtain ⟨hw, hw', hl⟩ := spriteShape_bounds m n
  have hheld : Guard.held64 ((m.spriteShape n).1 * (m.spriteShape n).2) =
      some ((m.spriteShape n).1 * (m.spriteShape n).2) :=
    Guard.held64_of_lt (by omega)
  have hhalf : (m.spriteShape n).1 * (m.spriteShape n).2 < Guard.half :=
    Nat.lt_of_le_of_lt hl (by decide)
  simp only [executeDraw, Machine.executeDraw, v_eq hx, v_eq hy, setFlag_eq, hheld,
    Ram.Guarded.slice_eq hhalf, bind, Option.bind]
  cases hs : (m.setFlag false).ram.slice (m.setFlag false).index
      ((m.spriteShape n).1 * (m.spriteShape n).2) with
  | error fault => rfl
  | ok bytes =>
      have hbytes : bytes.length ≤ 256 := le_of_eq_of_le (Ram.length_slice hs) hl
      have hfull : (m.setFlag false).surface.Full := h
      simp only [Except.map]
      rw [Surface.Guarded.blit_eq hfull (m.v x).toNat_lt (m.v y).toNat_lt hw hw' hbytes]
      rfl

/-- A wait passes all its guards. -/
theorem executeWait_eq (hx : x.toNat < 16) : executeWait m x = some (m.executeWait x) := by
  unfold executeWait Machine.executeWait Keypad.wait
  cases m.keypad.isShutdown with
  | true => rfl
  | false =>
      cases m.keypad.held with
      | none => rfl
      | some position =>
          simp only [label_eq, setV_eq hx, bind, Option.bind]
          rfl

/-- Bytes that can be counted pass all guards of a write. -/
theorem executeWrite_eq {bytes : List UInt8} (h : bytes.length < Guard.half) :
    executeWrite m bytes = some (m.executeWrite bytes) := by
  rw [executeWrite, Ram.Guarded.write_eq h, Machine.executeWrite]
  cases m.ram.write m.index bytes <;> rfl

/-- Reading registers from memory passes all its guards. -/
theorem executeRead_eq (hx : x.toNat < 16) : executeRead m x = some (m.executeRead x) := by
  have hhalf : x.toNat + 1 < Guard.half := Nat.lt_of_le_of_lt hx (by decide)
  simp only [executeRead, Machine.executeRead, countTo_eq, Ram.Guarded.slice_eq hhalf, bind,
    Option.bind]
  cases hs : m.ram.slice m.index (x.toNat + 1) with
  | error fault => rfl
  | ok bytes =>
      simp only [Except.map]
      rw [Bank.Guarded.overlay_eq hx (Ram.length_slice hs)]
      rfl

/-- Saving flags passes all its guards. -/
theorem executeSave_eq (hx : x.toNat < 16) :
    executeSave m x = some (m.execute 0 (.saveFlags x)) := by
  simp only [executeSave, countTo_eq, Bank.Guarded.before_eq hx,
    Bank.Guarded.overlay_eq hx (Bank.length_upTo hx), bind, Option.bind]
  rfl

/-- Restoring flags passes all its guards. -/
theorem executeRestore_eq (hx : x.toNat < 16) :
    executeRestore m x = some (m.execute 0 (.loadFlags x)) := by
  simp only [executeRestore, countTo_eq, Bank.Guarded.before_eq hx,
    Bank.Guarded.overlay_eq hx (Bank.length_upTo hx), bind, Option.bind]
  rfl

/-! ## All instructions -/

/-- An instruction that names registers makes sense in a sound machine. -/
theorem execute_eq (h : m.Sound settings) (hd : settings.stackDepth < UInt64.size)
    {i : Instruction} (hi : i.Named) (random : UInt8) :
    execute m random i = some (m.execute random i) := by
  have hs := h.size_pos
  cases i with
  | nop => rfl
  | clear | scrollDown | scrollRight | scrollLeft | extend | shrink =>
      rw [execute, change_eq h.full]
      rfl
  | ret => exact executeReturn_eq h.stack.fits
  | call address => exact executeCall_eq (lt_of_eq_of_lt h.stack.depth hd) hs address
  | jump address =>
      rw [execute, goTo_eq hs]
      rfl
  | skipEq x kk | skipNe x kk | skipPressed x | skipNotPressed x =>
      have hx := hi x List.mem_cons_self
      simp only [execute, v_eq hx, skipIf_eq hs, bind, Option.bind]
      rfl
  | skipEqReg x y | skipNeReg x y =>
      have hx := hi x List.mem_cons_self
      have hy := hi y (List.mem_cons_of_mem _ List.mem_cons_self)
      simp only [execute, v_eq hx, v_eq hy, skipIf_eq hs, bind, Option.bind]
      rfl
  | load x kk | add x kk | random x kk | loadDelay x =>
      have hx := hi x List.mem_cons_self
      simp only [execute, v_eq hx, setV_eq hx, bind, Option.bind]
      rfl
  | move x y | or x y | and x y | xor x y =>
      have hx := hi x List.mem_cons_self
      have hy := hi y (List.mem_cons_of_mem _ List.mem_cons_self)
      simp only [execute, v_eq hx, v_eq hy, setV_eq hx, bind, Option.bind]
      rfl
  | addReg x y | sub x y | subN x y =>
      have hx := hi x List.mem_cons_self
      have hy := hi y (List.mem_cons_of_mem _ List.mem_cons_self)
      simp only [execute, v_eq hx, v_eq hy, setResult_eq hx, bind, Option.bind]
      rfl
  | shr x | shl x =>
      have hx := hi x List.mem_cons_self
      simp only [execute, v_eq hx, setResult_eq hx, bind, Option.bind]
      rfl
  | loadIndex address =>
      rw [execute, setIndex_eq hs]
      rfl
  | jumpIndexed address =>
      have hheld : Guard.held64 ((m.v 0).toNat + address.toNat) =
          some ((m.v 0).toNat + address.toNat) := by
        have := (m.v 0).toNat_lt
        have := address.toNat_lt
        exact Guard.held64_of_lt (by omega)
      simp only [execute, v_eq (x := 0) (by decide), hheld, goTo_eq hs, bind, Option.bind]
      rfl
  | draw x y n =>
      have hx := hi x List.mem_cons_self
      have hy := hi y (List.mem_cons_of_mem _ List.mem_cons_self)
      exact executeDraw_eq h.full hx hy n
  | waitKey x => exact executeWait_eq (hi x List.mem_cons_self)
  | setDelay x | setSound x =>
      have hx := hi x List.mem_cons_self
      simp only [execute, v_eq hx, bind, Option.bind]
      rfl
  | addIndex x =>
      have hx := hi x List.mem_cons_self
      have hheld : Guard.held64 (m.index.toNat + (m.v x).toNat) =
          some (m.index.toNat + (m.v x).toNat) := by
        have := (m.v x).toNat_lt
        have := m.index.toNat_lt
        exact Guard.held64_of_lt (by omega)
      simp only [execute, v_eq hx, hheld, setIndex_eq hs, bind, Option.bind]
      rfl
  | glyph x | largeGlyph x =>
      have hx := hi x List.mem_cons_self
      simp only [execute, v_eq hx, bind, Option.bind]
      rw [glyphAt_eq (by decide)]
      rfl
  | bcd x =>
      have hx := hi x List.mem_cons_self
      simp only [execute, v_eq hx, bind, Option.bind]
      exact executeWrite_eq (show 3 < Guard.half by decide)
  | store x =>
      have hx := hi x List.mem_cons_self
      simp only [execute, countTo_eq, Bank.Guarded.before_eq hx, bind, Option.bind]
      refine executeWrite_eq (Nat.lt_of_le_of_lt ?_ (show 16 < Guard.half by decide))
      rw [Bank.length_upTo hx]
      exact hx
  | read x => exact executeRead_eq (hi x List.mem_cons_self)
  | saveFlags x => exact executeSave_eq (hi x List.mem_cons_self)
  | loadFlags x => exact executeRestore_eq (hi x List.mem_cons_self)

/-! ## Steps, loads and new machines -/

/-- An issued instruction passes all guards in a sound machine. -/
theorem perform_eq (h : m.Sound settings) (hd : settings.stackDepth < UInt64.size) {t : Traced}
    (ht : Word.StandsFor t.word t.instruction) (random : UInt8) :
    perform m random t = some (m.perform random t) := by
  rw [perform, execute_eq h hd ht.named]
  rfl

/-- A step of a sound machine makes sense, whatever it comes to. -/
theorem step_eq (h : m.Sound settings) (hd : settings.stackDepth < UInt64.size) (random : UInt8) :
    step m random = some (m.step random) := by
  rw [step, Ram.Guarded.word_eq, Machine.step]
  cases m.ram.word m.pc with
  | error fault => rfl
  | ok word =>
      simp only [bind, Option.bind, advance_eq h.size_pos]
      cases hw : Instruction.decode word m.pc with
      | error fault => rfl
      | ok i => exact perform_eq h.advance hd (Instruction.decode_eq_ok_iff.mp hw) random

/-- A program that can be counted passes all guards of a load. -/
theorem load_eq {program : List UInt8} (h : program.length < Guard.half) (address : UInt16) :
    load m address program = some (m.load address program) := by
  rw [load, Ram.Guarded.load_eq h, Machine.load]
  cases m.ram.load address program <;> rfl

/-- Building a machine passes all guards, whatever the settings are. -/
theorem build_eq (settings : Settings) : build settings = some (Machine.build settings) := by
  unfold build Machine.build
  cases settings.check with
  | error fault => rfl
  | ok u =>
      simp only [Ram.Guarded.build_eq, Surface.Guarded.extend_eq (.blank false), bind, Option.bind]
      cases Ram.build settings.memorySize <;> rfl

end Machine.Guarded

end SuperChip
