import SuperChip.Machine.Step

/-!
# The frame of an instruction

A machine is made of *parts*: the V registers, the address register, the program
counter, the call stack, the saved flags, memory, the surface, the keypad, the
timers and the settings.  The *footprint* of an instruction is the list of the parts
it can change.  It is read off the instruction alone.

An instruction leaves every part outside its footprint as it is, however it ends
(`same_execute`).  No footprint has the keypad or the settings in it.
-/

namespace SuperChip

/-! ## Parts -/

/-- A part of a machine. -/
inductive Part where
  | v
  | index
  | pc
  | stack
  | saved
  | ram
  | surface
  | keypad
  | clocks
  | settings
deriving DecidableEq

/-- A part is the same in two machines. -/
def Part.Same (m m' : Machine) : Part → Prop
  | .v => m'.registers.v = m.registers.v
  | .index => m'.registers.index = m.registers.index
  | .pc => m'.registers.pc = m.registers.pc
  | .stack => m'.registers.stack = m.registers.stack
  | .saved => m'.registers.saved = m.registers.saved
  | .ram => m'.ram = m.ram
  | .surface => m'.surface = m.surface
  | .keypad => m'.keypad = m.keypad
  | .clocks => m'.clocks = m.clocks
  | .settings => m'.settings = m.settings

theorem Part.Same.refl (m : Machine) (p : Part) : p.Same m m := by
  cases p <;> exact rfl

theorem Part.Same.trans {p : Part} {m m' m'' : Machine} (h : p.Same m m') (h' : p.Same m' m'') :
    p.Same m m'' := by
  cases p <;> exact Eq.trans h' h

/-- The parts an instruction can change. -/
def Instruction.footprint : Instruction → List Part
  | .nop => []
  | .clear | .scrollDown _ | .scrollRight | .scrollLeft | .extend | .shrink => [.surface]
  | .ret | .call _ => [.pc, .stack]
  | .jump _ | .jumpIndexed _ | .skipEq _ _ | .skipNe _ _ | .skipEqReg _ _ | .skipNeReg _ _
  | .skipPressed _ | .skipNotPressed _ => [.pc]
  | .draw _ _ _ => [.v, .surface]
  | .loadIndex _ | .addIndex _ | .glyph _ | .largeGlyph _ => [.index]
  | .setDelay _ | .setSound _ => [.clocks]
  | .bcd _ | .store _ => [.ram]
  | .saveFlags _ => [.saved]
  | .load _ _ | .add _ _ | .move _ _ | .or _ _ | .and _ _ | .xor _ _ | .addReg _ _ | .sub _ _
  | .subN _ _ | .shr _ | .shl _ | .random _ _ | .loadDelay _ | .waitKey _ | .read _
  | .loadFlags _ => [.v]

namespace Machine

variable {m : Machine} {p : Part}

/-! ## Changes of one part -/

/-- Writing a V register reaches the V registers only. -/
theorem same_setV (x value : UInt8) (h : p ≠ .v) : p.Same m (m.setV x value) := by
  cases p with
  | v => exact absurd rfl h
  | _ => simp only [Part.Same, setV]

theorem same_setResult (x value : UInt8) (flag : Bool) (h : p ≠ .v) :
    p.Same m (m.setResult x value flag) := by
  cases p with
  | v => exact absurd rfl h
  | _ => simp only [Part.Same, setResult, setFlag, Registers.setFlag, setV]

theorem same_overlayV (bytes : List UInt8) (h : p ≠ .v) : p.Same m (m.overlayV bytes) := by
  cases p with
  | v => exact absurd rfl h
  | _ => simp only [Part.Same, overlayV]

/-- Going elsewhere reaches the program counter only. -/
theorem same_setPc (address : UInt16) (h : p ≠ .pc) : p.Same m (m.setPc address) := by
  cases p with
  | pc => exact absurd rfl h
  | _ => exact rfl

theorem same_advance (h : p ≠ .pc) : p.Same m m.advance := same_setPc _ h

theorem same_skipIf (condition : Bool) (h : p ≠ .pc) : p.Same m (m.skipIf condition) := by
  unfold skipIf
  split
  · exact same_advance h
  · exact .refl m p

/-- Pointing elsewhere reaches the address register only. -/
theorem same_setIndex (address : UInt16) (h : p ≠ .index) : p.Same m (m.setIndex address) := by
  cases p with
  | index => exact absurd rfl h
  | _ => exact rfl

/-- A change of the surface reaches nothing else. -/
theorem same_change (c : Surface.Change) (h : p ≠ .surface) : p.Same m (m.change c) := by
  cases p with
  | surface => exact absurd rfl h
  | _ => exact rfl

theorem same_setClocks (clocks : Clocks) (h : p ≠ .clocks) : p.Same m { m with clocks } := by
  cases p with
  | clocks => exact absurd rfl h
  | _ => exact rfl

theorem same_setRam (ram : Ram) (h : p ≠ .ram) : p.Same m { m with ram } := by
  cases p with
  | ram => exact absurd rfl h
  | _ => exact rfl

theorem same_setSaved (saved : Bank) (h : p ≠ .saved) :
    p.Same m { m with registers := { m.registers with saved } } := by
  cases p with
  | saved => exact absurd rfl h
  | _ => exact rfl

/-! ## Instructions with more than one case -/

/-- A return reaches the program counter and the stack only, also when it fails. -/
theorem same_executeReturn (hp : p ≠ .pc) (hs : p ≠ .stack) :
    p.Same m m.executeReturn.machine := by
  unfold executeReturn
  split
  · cases p with
    | pc => exact absurd rfl hp
    | stack => exact absurd rfl hs
    | _ => exact rfl
  · exact .refl m p

/-- A call reaches the program counter and the stack only, also when it fails. -/
theorem same_executeCall (address : UInt16) (hp : p ≠ .pc) (hs : p ≠ .stack) :
    p.Same m (m.executeCall address).machine := by
  unfold executeCall
  split
  · cases p with
    | pc => exact absurd rfl hp
    | stack => exact absurd rfl hs
    | _ => exact rfl
  · exact .refl m p

/-- A draw reaches the V registers and the surface only, also when it fails. -/
theorem same_executeDraw (x y n : UInt8) (hv : p ≠ .v) (hs : p ≠ .surface) :
    p.Same m (m.executeDraw x y n).machine := by
  unfold executeDraw
  dsimp only
  split
  · cases p with
    | v => exact absurd rfl hv
    | surface => exact absurd rfl hs
    | _ => simp only [Part.Same, Outcome.done, setFlag, Registers.setFlag]
  · exact same_setV _ _ hv

/-- A wait reaches the V registers only. -/
theorem same_executeWait (x : UInt8) (h : p ≠ .v) : p.Same m (m.executeWait x).machine := by
  unfold executeWait
  split
  · exact same_setV _ _ h
  · exact .refl m p
  · exact .refl m p

/-- A write reaches memory only. -/
theorem same_executeWrite (bytes : List UInt8) (h : p ≠ .ram) :
    p.Same m (m.executeWrite bytes).machine := by
  unfold executeWrite
  split
  · exact same_setRam _ h
  · exact .refl m p

/-- Reading registers from memory reaches the V registers only. -/
theorem same_executeRead (x : UInt8) (h : p ≠ .v) : p.Same m (m.executeRead x).machine := by
  unfold executeRead
  split
  · exact same_overlayV _ h
  · exact .refl m p

/-! ## All instructions -/

theorem ne_of_not_mem_footprint {q q' : Part} (h : p ∉ [q, q']) : p ≠ q ∧ p ≠ q' :=
  ⟨List.ne_of_not_mem_cons h,
    List.ne_of_not_mem_cons (List.not_mem_of_not_mem_cons h)⟩

/-- An instruction leaves what is outside its footprint as it is. -/
theorem same_execute (random : UInt8) {i : Instruction} (h : p ∉ i.footprint) :
    p.Same m (m.execute random i).machine := by
  cases i with
  | nop => exact .refl m p
  | clear | scrollDown | scrollRight | scrollLeft | extend | shrink =>
      exact same_change _ (List.ne_of_not_mem_cons h)
  | ret =>
      have hp := ne_of_not_mem_footprint h
      exact same_executeReturn hp.1 hp.2
  | call =>
      have hp := ne_of_not_mem_footprint h
      exact same_executeCall _ hp.1 hp.2
  | jump | jumpIndexed => exact same_setPc _ (List.ne_of_not_mem_cons h)
  | skipEq | skipNe | skipEqReg | skipNeReg | skipPressed | skipNotPressed =>
      exact same_skipIf _ (List.ne_of_not_mem_cons h)
  | load | add | move | or | and | xor | random | loadDelay =>
      exact same_setV _ _ (List.ne_of_not_mem_cons h)
  | addReg | sub | subN | shr | shl => exact same_setResult _ _ _ (List.ne_of_not_mem_cons h)
  | loadIndex | addIndex | glyph | largeGlyph => exact same_setIndex _ (List.ne_of_not_mem_cons h)
  | draw =>
      have hp := ne_of_not_mem_footprint h
      exact same_executeDraw _ _ _ hp.1 hp.2
  | waitKey => exact same_executeWait _ (List.ne_of_not_mem_cons h)
  | setDelay | setSound => exact same_setClocks _ (List.ne_of_not_mem_cons h)
  | bcd | store => exact same_executeWrite _ (List.ne_of_not_mem_cons h)
  | read => exact same_executeRead _ (List.ne_of_not_mem_cons h)
  | saveFlags => exact same_setSaved _ (List.ne_of_not_mem_cons h)
  | loadFlags => exact same_overlayV _ (List.ne_of_not_mem_cons h)

/-- No instruction changes the keypad. -/
theorem keypad_not_mem_footprint (i : Instruction) : .keypad ∉ i.footprint := by
  cases i <;> simp [Instruction.footprint]

/-- No instruction changes the settings. -/
theorem settings_not_mem_footprint (i : Instruction) : .settings ∉ i.footprint := by
  cases i <;> simp [Instruction.footprint]

end Machine

end SuperChip
