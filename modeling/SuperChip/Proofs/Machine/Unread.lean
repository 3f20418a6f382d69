import SuperChip.Proofs.Keypad
import SuperChip.Proofs.Machine.Writes
import SuperChip.Proofs.Session.Stints

/-!
# Registers that are not read

A word *reads* a V register when what it does depends on the byte in there.  `Word.Reads` says
which registers these are, digit by digit of the word.  Most words name a register only to write
it, and the flag register is written by many and read by none for its own sake.

Two machines are *alike but for* VK when one of them is the other one with some byte in VK.  An
instruction that does not read VK does the same in both: it comes to the same ending, leaves the
same in the journal, and the machines are alike but for VK again (`Machine.AlikeBut.execute`).
If it is done and sets VK, no difference is left (`Machine.AlikeBut.execute_eq`).

The same goes for the steps of sessions, also of a processor that waits for a key in between
(`Session.unread_register_unseen`).
-/

namespace SuperChip

/-! ## Words that read -/

namespace Word

/-- What a word does depends on a V register. -/
def Reads (w : UInt16) (k : UInt8) : Prop :=
  k = x w ∧ (family w ∈ [0x3, 0x4, 0x7] ∨ family w = 0x8 ∧ n w ∈ [0x6, 0xE] ∨
      family w = 0xE ∧ kk w ∈ [0x9E, 0xA1] ∨
      family w = 0xF ∧ kk w ∈ [0x15, 0x18, 0x1E, 0x29, 0x30, 0x33]) ∨
    (k = x w ∨ k = y w) ∧ (family w ∈ [0x5, 0x9, 0xD] ∨
      family w = 0x8 ∧ n w ∈ [0x1, 0x2, 0x3, 0x4, 0x5, 0x7]) ∨
    k = y w ∧ family w = 0x8 ∧ n w = 0x0 ∨
    k = 0 ∧ family w = 0xB ∨
    k ≤ x w ∧ family w = 0xF ∧ kk w ∈ [0x55, 0x75]

end Word

namespace Instruction

/-- What an instruction does depends on a V register. -/
def Reads (k : UInt8) : Instruction → Prop
  | .skipEq x _ | .skipNe x _ | .add x _ | .shr x | .shl x | .skipPressed x | .skipNotPressed x
  | .setDelay x | .setSound x | .addIndex x | .glyph x | .largeGlyph x | .bcd x => k = x
  | .skipEqReg x y | .skipNeReg x y | .or x y | .and x y | .xor x y | .addReg x y | .sub x y
  | .subN x y | .draw x y _ => k = x ∨ k = y
  | .move _ y => k = y
  | .jumpIndexed _ => k = 0
  | .store x | .saveFlags x => k ≤ x
  | _ => False

/-- An instruction that is done puts a byte into a V register.  A look for a key does so only
while the machine is not shut down. -/
def Sets (m : Machine) (k : UInt8) : Instruction → Prop
  | .load x _ | .add x _ | .move x _ | .or x _ | .and x _ | .xor x _ | .random x _
  | .loadDelay x => k = x
  | .waitKey x => k = x ∧ m.keypad.isShutdown = false
  | .addReg x _ | .sub x _ | .subN x _ | .shr x | .shl x => k = x ∨ k = flagRegister
  | .draw _ _ _ => k = flagRegister
  | .read x | .loadFlags x => k ≤ x
  | _ => False

end Instruction

namespace Word.StandsFor

variable {w : UInt16} {i : Instruction} {k : UInt8}

/-- What a word stands for reads no register but those that the word reads. -/
theorem reads (h : StandsFor w i) (hr : i.Reads k) : Word.Reads w k := by
  obtain ⟨f, ⟨hf, -, hy, hn⟩, rfl⟩ := h
  cases f <;>
    simp_all [Form.layout, Form.instruction, Slot.Takes, Instruction.Reads, Word.Reads,
      Word.kk_eq_iff, Word.n_eq_iff, Word.toNat_y, Word.toNat_n]

/-- A register that a word sets is set by what the word stands for. -/
theorem sets {m : Machine} (h : StandsFor w i) (hs : Word.Sets w m k) : i.Sets m k := by
  obtain ⟨f, ⟨hf, -, hy, hn⟩, rfl⟩ := h
  cases f <;>
    simp_all [Form.layout, Form.instruction, Slot.Takes, Instruction.Sets, Word.Sets, flagRegister,
      Word.kk_eq_iff, Word.n_eq_iff, Word.toNat_y, Word.toNat_n]

end Word.StandsFor

/-! ## Banks -/

namespace Bank

variable {x y : UInt8}

theorem read_write_self (h : x.toNat < 16) (b : Bank) (c : UInt8) : (b.write x c).read x = c :=
  (read_write h).trans (if_pos rfl)

/-- Of two writes to one register the later one counts. -/
theorem write_write (b : Bank) (x c d : UInt8) : (b.write x c).write x d = b.write x d := by
  refine ext_read fun z hz => ?_
  by_cases h : z = x
  · subst h
    rw [read_write_self hz, read_write_self hz]
  · rw [read_write_of_ne h, read_write_of_ne h, read_write_of_ne h]

/-- Writing what is there already changes nothing. -/
theorem write_read (b : Bank) (x : UInt8) : b.write x (b.read x) = b := by
  refine ext_read fun z hz => ?_
  by_cases h : z = x
  · subst h
    exact read_write_self hz b _
  · exact read_write_of_ne h

/-- Writes to two registers can change places. -/
theorem write_comm (h : x ≠ y) (b : Bank) (c d : UInt8) :
    (b.write x c).write y d = (b.write y d).write x c := by
  refine ext_read fun z hz => ?_
  by_cases hx : z = x
  · subst hx
    rw [read_write_of_ne h, read_write_self hz, read_write_self hz]
  · by_cases hy : z = y
    · subst hy
      rw [read_write_self hz, read_write_of_ne hx, read_write_self hz]
    · rw [read_write_of_ne hy, read_write_of_ne hx, read_write_of_ne hx, read_write_of_ne hy]

/-- A byte that was written stays where no byte is laid over it. -/
theorem overlay_write (b : Bank) (x c : UInt8) (bytes : List UInt8) :
    (b.write x c).overlay bytes = (b.overlay bytes).write x (bytes[x.toNat]?.getD c) := by
  refine ext_read fun z hz => ?_
  rw [read_overlay hz]
  by_cases h : z = x
  · subst h
    rw [read_write_self hz, read_write_self hz]
  · rw [read_write_of_ne h, read_write_of_ne h, read_overlay hz]

/-- What is written behind the first bytes is none of them. -/
theorem upTo_write (h : ¬y ≤ x) (b : Bank) (c : UInt8) : (b.write y c).upTo x = b.upTo x := by
  rw [UInt8.le_iff_toNat_le] at h
  unfold upTo toList write
  rw [Vector.toList_setIfInBounds, List.take_set_of_le (by omega)]

end Bank

/-! ## Machines that are alike -/

namespace Machine

/-- A machine is another one with some byte in VK. -/
def AlikeBut (k : UInt8) (m m' : Machine) : Prop := ∃ b, m' = m.setV k b

end Machine

/-- Two outcomes are the same, but that their machines are alike but for VK. -/
structure Outcome.AlikeBut (k : UInt8) (o o' : Outcome) : Prop where
  machine : o.machine.AlikeBut k o'.machine
  ending : o'.ending = o.ending
  entries : o'.entries = o.entries

/-- Two steps are the same, but that their machines are alike but for VK. -/
structure Machine.Step.AlikeBut (k : UInt8) (s s' : Step) : Prop where
  machine : s.machine.AlikeBut k s'.machine
  ending : s'.ending = s.ending
  entries : s'.entries = s.entries
  issued : s'.issued = s.issued

namespace Machine

variable {m m' : Machine} {k x y : UInt8} {random : UInt8} {i : Instruction} {w : UInt16}

theorem v_setV (h : x.toNat < 16) (value : UInt8) : (m.setV x value).v x = value :=
  Bank.read_write_self h _ value

theorem setV_v (m : Machine) (x : UInt8) : m.setV x (m.v x) = m := by
  rw [setV, v, Bank.write_read]

theorem setV_setV (m : Machine) (x c d : UInt8) : (m.setV x c).setV x d = m.setV x d := by
  simp only [setV, Bank.write_write]

theorem setV_comm (h : x ≠ y) (m : Machine) (c d : UInt8) :
    (m.setV x c).setV y d = (m.setV y d).setV x c := by
  simp only [setV, Bank.write_comm h]

namespace AlikeBut

variable (h : m.AlikeBut k m')
include h

/-! ### What is the same in both -/

/-- All other registers are the same. -/
theorem v (hx : k ≠ x) : m'.v x = m.v x := by
  obtain ⟨b, rfl⟩ := h
  exact Bank.read_write_of_ne hx.symm

/-- Registers up to one in front of VK are the same. -/
theorem upTo (hx : ¬k ≤ x) : m'.registers.v.upTo x = m.registers.v.upTo x := by
  obtain ⟨b, rfl⟩ := h
  exact Bank.upTo_write hx _ b

/-- All parts but the V registers are the same. -/
theorem same {p : Part} (hp : p ≠ .v) : p.Same m m' := by
  obtain ⟨b, rfl⟩ := h
  exact same_setV k b hp

theorem pc : m'.pc = m.pc := h.same (p := .pc) (by decide)

theorem index : m'.index = m.index := h.same (p := .index) (by decide)

theorem ram : m'.ram = m.ram := h.same (p := .ram) (by decide)

theorem keypad : m'.keypad = m.keypad := h.same (p := .keypad) (by decide)

theorem clocks : m'.clocks = m.clocks := h.same (p := .clocks) (by decide)

theorem surface : m'.surface = m.surface := h.same (p := .surface) (by decide)

theorem stack : m'.registers.stack = m.registers.stack := h.same (p := .stack) (by decide)

theorem saved : m'.registers.saved = m.registers.saved := h.same (p := .saved) (by decide)

/-- Both machines come to the same word. -/
theorem fetches_iff : m'.Fetches w ↔ m.Fetches w := by
  rw [Fetches, Fetches, h.pc, h.ram]

/-- Machines that are alike but for VK and have the same byte there are the same. -/
theorem eq (hk : k.toNat < 16) (hv : m'.v k = m.v k) : m' = m := by
  obtain ⟨b, rfl⟩ := h
  rw [v_setV hk] at hv
  rw [hv, setV_v]

/-! ### Changes of both -/

/-- Machines stay alike but for VK by a change that has nothing to do with VK. -/
theorem map (f : Machine → Machine) (hf : ∀ b, f (m.setV k b) = (f m).setV k b) :
    (f m).AlikeBut k (f m') := by
  obtain ⟨b, rfl⟩ := h
  exact ⟨b, hf b⟩

theorem setV (x value : UInt8) : (m.setV x value).AlikeBut k (m'.setV x value) := by
  obtain ⟨b, rfl⟩ := h
  by_cases hx : k = x
  · subst hx
    exact ⟨value, by rw [setV_setV, setV_setV]⟩
  · exact ⟨b, setV_comm hx m b value⟩

theorem setFlag (on : Bool) : (m.setFlag on).AlikeBut k (m'.setFlag on) := h.setV flagRegister _

theorem setResult (x value : UInt8) (flag : Bool) :
    (m.setResult x value flag).AlikeBut k (m'.setResult x value flag) :=
  (h.setV x value).setFlag flag

/-- Laying bytes over the first registers keeps two machines alike. -/
theorem overlayV (bytes : List UInt8) : (m.overlayV bytes).AlikeBut k (m'.overlayV bytes) := by
  obtain ⟨b, rfl⟩ := h
  refine ⟨bytes[k.toNat]?.getD b, ?_⟩
  simp only [Machine.overlayV, Machine.setV, Bank.overlay_write]

theorem goTo (n : Nat) : (m.goTo n).AlikeBut k (m'.goTo n) :=
  h.map (Machine.goTo · n) fun _ => rfl

theorem advance : m.advance.AlikeBut k m'.advance := h.map Machine.advance fun _ => rfl

/-- A skip that both machines take or neither one keeps them alike. -/
theorem skipIf (condition : Bool) : (m.skipIf condition).AlikeBut k (m'.skipIf condition) := by
  cases condition with
  | false => exact h
  | true => exact h.advance

theorem setIndex (address : UInt16) : (m.setIndex address).AlikeBut k (m'.setIndex address) :=
  h.map (Machine.setIndex · address) fun _ => rfl

theorem change (c : Surface.Change) : (m.change c).AlikeBut k (m'.change c) :=
  h.map (Machine.change · c) fun _ => rfl

theorem setSurface (surface : Surface) :
    AlikeBut k { m with surface } { m' with surface } :=
  h.map (fun m => { m with surface }) fun _ => rfl

theorem setClocks (clocks : Clocks) : AlikeBut k { m with clocks } { m' with clocks } :=
  h.map (fun m => { m with clocks }) fun _ => rfl

theorem setRam (ram : Ram) : AlikeBut k { m with ram } { m' with ram } :=
  h.map (fun m => { m with ram }) fun _ => rfl

theorem setSaved (saved : Bank) :
    AlikeBut k { m with registers := { m.registers with saved } }
      { m' with registers := { m'.registers with saved } } :=
  h.map (fun m => { m with registers := { m.registers with saved } }) fun _ => rfl

theorem act (a : Keypad.Action) : (m.act a).AlikeBut k (m'.act a) :=
  h.map (Machine.act · a) fun _ => rfl

theorem done : (Outcome.done m).AlikeBut k (.done m') := ⟨h, rfl, rfl⟩

theorem failed (fault : Fault) : (Outcome.failed m fault).AlikeBut k (.failed m' fault) :=
  ⟨h, rfl, rfl⟩

/-! ### Instructions with more than one case -/

/-- Two machines that are alike return alike, or fail alike. -/
theorem executeReturn : m.executeReturn.AlikeBut k m'.executeReturn := by
  rw [Machine.executeReturn, Machine.executeReturn, h.stack]
  split
  next address stack hp =>
    exact (h.map (fun m =>
      { m with registers := { m.registers with stack, pc := address } }) fun _ => rfl).done
  next fault hp => exact h.failed fault

/-- Two machines that are alike call alike, or fail alike. -/
theorem executeCall (address : UInt16) :
    (m.executeCall address).AlikeBut k (m'.executeCall address) := by
  rw [Machine.executeCall, Machine.executeCall, h.stack, h.pc]
  split
  next stack hp =>
    exact (h.map (fun m =>
      { m with registers := { m.registers with stack } }.goTo address.toNat) fun _ => rfl).done
  next fault hp => exact h.failed fault

/-- Drawing looks only at VX and VY, and that before it writes the flag register. -/
theorem executeDraw {n : UInt8} (hx : k ≠ x) (hy : k ≠ y) :
    (m.executeDraw x y n).AlikeBut k (m'.executeDraw x y n) := by
  have hc := h.setFlag false
  have hr : (m'.setFlag false).ram.slice (m'.setFlag false).index =
      (m.setFlag false).ram.slice (m.setFlag false).index := by
    rw [hc.ram, hc.index]
  unfold Machine.executeDraw spriteShape
  rw [h.v hx, h.v hy, h.surface]
  dsimp only
  rw [hr, hc.surface]
  split
  next bytes hb => exact ((hc.setSurface _).setFlag _).done
  next fault hb => exact hc.failed fault

/-- Two machines that are alike wait alike. -/
theorem executeWait (x : UInt8) : (m.executeWait x).AlikeBut k (m'.executeWait x) := by
  rw [Machine.executeWait, Machine.executeWait, h.keypad]
  split
  next label hw => exact (h.setV x label).done
  next hw => exact ⟨h, rfl, rfl⟩
  next hw => exact ⟨h, rfl, rfl⟩

/-- Bytes that both machines write are the same, and so is whether they fit. -/
theorem executeWrite (bytes : List UInt8) :
    (m.executeWrite bytes).AlikeBut k (m'.executeWrite bytes) := by
  rw [Machine.executeWrite, Machine.executeWrite, h.ram, h.index]
  split
  next ram hw => exact (h.setRam ram).done
  next fault hw => exact h.failed fault

/-- Two machines that are alike read the same bytes. -/
theorem executeRead (x : UInt8) : (m.executeRead x).AlikeBut k (m'.executeRead x) := by
  rw [Machine.executeRead, Machine.executeRead, h.ram, h.index]
  split
  next bytes hs => exact (h.overlayV bytes).done
  next fault hs => exact h.failed fault

/-! ### All instructions -/

/-- An instruction that does not read VK does the same whatever is in there. -/
theorem execute (hi : ¬i.Reads k) (random : UInt8) :
    (m.execute random i).AlikeBut k (m'.execute random i) := by
  cases i with
  | nop => exact h.done
  | clear | scrollDown | scrollRight | scrollLeft | extend | shrink => exact (h.change _).done
  | ret => exact h.executeReturn
  | jump => exact (h.goTo _).done
  | call => exact h.executeCall _
  | skipEq x kk | skipNe x kk =>
      simp only [Machine.execute, h.v hi]
      exact (h.skipIf _).done
  | skipEqReg x y | skipNeReg x y =>
      obtain ⟨hx, hy⟩ := not_or.mp hi
      simp only [Machine.execute, h.v hx, h.v hy]
      exact (h.skipIf _).done
  | load | random => exact (h.setV _ _).done
  | add x | move _ x =>
      simp only [Machine.execute, h.v hi]
      exact (h.setV _ _).done
  | or x y | and x y | xor x y =>
      obtain ⟨hx, hy⟩ := not_or.mp hi
      simp only [Machine.execute, h.v hx, h.v hy]
      exact (h.setV _ _).done
  | addReg x y | sub x y | subN x y =>
      obtain ⟨hx, hy⟩ := not_or.mp hi
      simp only [Machine.execute, h.v hx, h.v hy]
      exact (h.setResult _ _ _).done
  | shr x | shl x =>
      simp only [Machine.execute, h.v hi]
      exact (h.setResult _ _ _).done
  | loadIndex =>
      simp only [Machine.execute, h.ram]
      exact (h.setIndex _).done
  | jumpIndexed =>
      simp only [Machine.execute, h.v hi]
      exact (h.goTo _).done
  | draw =>
      obtain ⟨hx, hy⟩ := not_or.mp hi
      exact h.executeDraw hx hy
  | skipPressed x | skipNotPressed x =>
      simp only [Machine.execute, h.v hi, h.keypad]
      exact (h.skipIf _).done
  | loadDelay =>
      simp only [Machine.execute, h.clocks]
      exact (h.setV _ _).done
  | waitKey => exact h.executeWait _
  | setDelay x | setSound x =>
      simp only [Machine.execute, h.v hi, h.clocks]
      exact (h.setClocks _).done
  | addIndex =>
      simp only [Machine.execute, h.v hi, h.ram, h.index]
      exact (h.setIndex _).done
  | glyph | largeGlyph =>
      simp only [Machine.execute, h.v hi]
      exact (h.setIndex _).done
  | bcd x =>
      simp only [Machine.execute, h.v hi]
      exact h.executeWrite _
  | store x =>
      simp only [Machine.execute, h.upTo hi]
      exact h.executeWrite _
  | read => exact h.executeRead _
  | saveFlags =>
      simp only [Machine.execute, h.upTo hi, h.saved]
      exact (h.setSaved _).done
  | loadFlags =>
      simp only [Machine.execute, h.saved]
      exact (h.overlayV _).done

/-! ### Registers that are set -/

/-- Once something is put into VK no difference is left. -/
theorem setV_eq (value : UInt8) : m'.setV k value = m.setV k value := by
  obtain ⟨b, rfl⟩ := h
  exact setV_setV m k b value

/-- A result that is put over VK makes the machines equal. -/
theorem setResult_eq (hk : k = x ∨ k = flagRegister) (value : UInt8) (flag : Bool) :
    m'.setResult x value flag = m.setResult x value flag := by
  rcases hk with rfl | rfl
  · rw [Machine.setResult, Machine.setResult, h.setV_eq]
  · exact (h.setV x value).setV_eq _

/-- Bytes that are laid over VK make the machines equal. -/
theorem overlayV_eq {bytes : List UInt8} (hk : k.toNat < 16) (hl : k.toNat < bytes.length) :
    m'.overlayV bytes = m.overlayV bytes := by
  refine (h.overlayV bytes).eq hk ?_
  simp only [Machine.v, Machine.overlayV]
  rw [Bank.read_overlay hk, Bank.read_overlay hk, List.getElem?_eq_getElem hl]
  rfl

/-- A key that is put into VK makes the machines equal. -/
theorem executeWait_eq (hs : m.keypad.isShutdown = false)
    (hd : (m.executeWait k).ending = .done) : m'.executeWait k = m.executeWait k := by
  unfold Machine.executeWait at hd ⊢
  rw [h.keypad]
  cases hw : m.keypad.wait with
  | key label => exact congrArg Outcome.done (h.setV_eq label)
  | interrupted => cases hs.symm.trans (Keypad.wait_eq_interrupted_iff.mp hw)
  | blocked =>
      rw [hw] at hd
      cases hd

/-- Bytes that are read over VK make the machines equal. -/
theorem executeRead_eq (hk : k.toNat < 16) (hx : k ≤ x)
    (hd : (m.executeRead x).ending = .done) : m'.executeRead x = m.executeRead x := by
  unfold Machine.executeRead at hd ⊢
  rw [h.ram, h.index]
  cases hs : m.ram.slice m.index (x.toNat + 1) with
  | ok bytes =>
      have hl : k.toNat < bytes.length := by
        rw [Ram.length_slice hs]
        exact Nat.lt_succ_of_le (UInt8.le_iff_toNat_le.mp hx)
      exact congrArg Outcome.done (h.overlayV_eq hk hl)
  | error fault =>
      rw [hs] at hd
      cases hd

/-- A flag that is put into VK makes the machines equal. -/
theorem executeDraw_eq {n : UInt8} (hk : k = flagRegister) (hx : k ≠ x) (hy : k ≠ y) :
    m'.executeDraw x y n = m.executeDraw x y n := by
  subst hk
  have hc : m'.setFlag false = m.setFlag false := h.setV_eq _
  unfold Machine.executeDraw spriteShape
  rw [h.v hx, h.v hy, h.surface, hc]

/-- An instruction that is done and does not read VK, but sets it, leaves no difference. -/
theorem execute_eq (hk : k.toNat < 16) (hn : i.Named) (hi : ¬i.Reads k) (hs : i.Sets m k)
    (hd : (m.execute random i).ending = .done) : m'.execute random i = m.execute random i := by
  cases i with
  | load x kk | random x kk =>
      cases hs
      exact congrArg Outcome.done (h.setV_eq _)
  | loadDelay x =>
      cases hs
      simp only [Machine.execute, h.setV_eq, h.clocks]
  | move x y =>
      cases hs
      simp only [Machine.execute, h.setV_eq, h.v hi]
  | add x kk => exact absurd hs hi
  | or x y | and x y | xor x y => exact absurd (.inl hs) hi
  | addReg x y | sub x y | subN x y =>
      obtain ⟨hx, hy⟩ := not_or.mp hi
      simp only [Machine.execute, h.v hx, h.v hy, h.setResult_eq hs]
  | shr x | shl x => simp only [Machine.execute, h.v hi, h.setResult_eq hs]
  | draw x y n =>
      obtain ⟨hx, hy⟩ := not_or.mp hi
      exact h.executeDraw_eq hs hx hy
  | waitKey x =>
      obtain ⟨rfl, hs⟩ := hs
      exact h.executeWait_eq hs hd
  | read x => exact h.executeRead_eq hk hs hd
  | loadFlags x =>
      have hl : k.toNat < (m.registers.saved.upTo x).length := by
        rw [Bank.length_upTo (hn x List.mem_cons_self)]
        exact Nat.lt_succ_of_le (UInt8.le_iff_toNat_le.mp hs)
      simp only [Machine.execute, h.saved, h.overlayV_eq hk hl]
  | _ => exact hs.elim

/-! ### Steps -/

/-- An instruction that does not read VK is executed alike. -/
theorem perform {t : Traced} (hi : ¬t.instruction.Reads k) (random : UInt8) :
    (m.perform random t).AlikeBut k (m'.perform random t) := by
  obtain ⟨hm, he, hj⟩ := h.execute hi random
  exact ⟨hm, he, hj, rfl⟩

/-- What a step comes to does not depend on VK, if the word that it fetches does not read VK. -/
theorem step (hr : ∀ w, m.Fetches w → ¬Word.Reads w k) (random : UInt8) :
    (m.step random).AlikeBut k (m'.step random) := by
  rcases stage_cases m with hf | ⟨w, hw, hi⟩ | ⟨w, i, hw, hi⟩
  · have hf' : m'.ram.size < m'.pc.toNat + 2 := by
      rw [h.ram, h.pc]
      exact hf
    rw [step_of_not_fetches hf, step_of_not_fetches hf', h.pc]
    exact ⟨h, rfl, rfl, rfl⟩
  · rw [step_of_unsupported hw hi, step_of_unsupported (h.fetches_iff.mpr hw) hi, h.pc]
    exact ⟨h.advance, rfl, rfl, rfl⟩
  · rw [step_of_standsFor hw hi, step_of_standsFor (h.fetches_iff.mpr hw) hi, h.pc]
    exact h.advance.perform (fun hk => hr w hw (hi.reads hk)) random

end AlikeBut

end Machine

/-! ## Sessions that are alike -/

/-- What can come from outside while the processor waits. -/
def Event.FromOutside : Event → Prop
  | .change _ | .act _ | .time _ => True
  | _ => False

namespace Session

variable {settings : Settings} {s s' : Session} {k : UInt8} {random : UInt8} {w : UInt16}
  {e : Event} {events : List Event}

/-- Two sessions are the same, but that their machines are alike but for VK. -/
structure AlikeBut (k : UInt8) (s s' : Session) : Prop where
  machine : s.machine.AlikeBut k s'.machine
  parked : s'.parked = s.parked

/-- Through events the processor stays in the step that it comes to in a session: whenever it
is at work it waits for a key, and all else comes from outside. -/
inductive StaysIn : Session → List Event → Prop where
  | now (s : Session) : StaysIn s []
  | attempt {s : Session} {random : UInt8} {events : List Event} :
      (s.proceed random).ending = .waiting → StaysIn (s.next (.step random)) events →
      StaysIn s (.step random :: events)
  | outside {s : Session} {e : Event} {events : List Event} :
      e.FromOutside → StaysIn (s.next e) events → StaysIn s (e :: events)

/-- What comes from outside does not change what the processor comes to. -/
theorem comesTo_next_of_fromOutside (he : e.FromOutside) : (s.next e).ComesTo w ↔ s.ComesTo w := by
  cases e with
  | change | act | time => exact Iff.rfl
  | _ => exact he.elim

/-- Behind an attempt that waits the processor is still in the same word. -/
theorem comesTo_next_step (hd : (s.proceed random).ending = .waiting) :
    (s.next (.step random)).ComesTo w ↔ s.ComesTo w := by
  obtain ⟨m, parked⟩ := s
  cases parked with
  | some t =>
      have ht : (next ⟨m, some t⟩ (.step random)).parked = some t :=
        parked_ofStep_eq_some_iff.mpr ⟨hd, rfl⟩
      rw [ComesTo, ht]
      exact Iff.rfl
  | none =>
      rcases m.step_issued random with ⟨t, hi⟩ | ⟨fault, hf⟩
      · have ht : (next ⟨m, none⟩ (.step random)).parked = some t :=
          parked_ofStep_eq_some_iff.mpr ⟨hd, hi⟩
        have hw : m.Fetches t.word := (Machine.reads_of_issued hi).1.fetches
        rw [ComesTo, ht]
        exact ⟨fun he => he ▸ hw, hw.unique⟩
      · cases hd.symm.trans hf

namespace AlikeBut

variable (h : s.AlikeBut k s')
include h

/-- What the processor comes to does not depend on VK, if the word does not read VK. -/
theorem proceed (hs : s.Sound settings) (hr : ∀ w, s.ComesTo w → ¬Word.Reads w k)
    (random : UInt8) : (s.proceed random).AlikeBut k (s'.proceed random) := by
  unfold Session.proceed
  rw [h.parked]
  unfold ComesTo at hr
  cases hp : s.parked with
  | none =>
      rw [hp] at hr
      exact h.machine.step hr random
  | some t =>
      rw [hp] at hr
      exact h.machine.perform (fun hk => hr _ rfl ((hs.ready t hp).standsFor.reads hk)) random

/-- If the word sets VK, and all of it is executed, no difference is left. -/
theorem proceed_eq (hs : s.Sound settings) (hk : k.toNat < 16)
    (hr : ∀ w, s.ComesTo w → ¬Word.Reads w k) (hw : s.ComesTo w) (hset : Word.Sets w s.machine k)
    (hd : (s.proceed random).ending = .done) :
    (s'.proceed random).machine = (s.proceed random).machine := by
  have hn := hr w hw
  unfold Session.proceed at hd ⊢
  rw [h.parked]
  unfold ComesTo at hw
  cases hp : s.parked with
  | none =>
      rw [hp] at hw hd
      obtain ⟨w', i, hf, hi, he⟩ := Machine.step_of_done hd
      cases hf.unique hw
      dsimp only at hd ⊢
      rw [he] at hd ⊢
      rw [Machine.step_of_standsFor (h.machine.fetches_iff.mpr hw) hi]
      exact congrArg Outcome.machine (h.machine.advance.execute_eq hk hi.named
        (fun hk => hn (hi.reads hk)) (hi.sets hset) hd)
  | some t =>
      rw [hp] at hw hd
      have hi := (hs.ready t hp).standsFor
      cases hw
      exact congrArg Outcome.machine (h.machine.execute_eq hk hi.named
        (fun hk => hn (hi.reads hk)) (hi.sets hset) hd)

/-- What comes from outside keeps two sessions alike. -/
theorem next_outside (he : e.FromOutside) : (s.next e).AlikeBut k (s'.next e) := by
  cases e with
  | change c => exact ⟨h.machine.change c, h.parked⟩
  | act a => exact ⟨h.machine.act a, h.parked⟩
  | time clocks => exact ⟨h.machine.setClocks clocks, h.parked⟩
  | _ => exact he.elim

/-- A step keeps two sessions alike if no word that they come to reads VK. -/
theorem next_step (hs : s.Sound settings) (hr : ∀ w, s.ComesTo w → ¬Word.Reads w k)
    (random : UInt8) : (s.next (.step random)).AlikeBut k (s'.next (.step random)) := by
  obtain ⟨hm, he, -, hi⟩ := h.proceed hs hr random
  refine ⟨hm, ?_⟩
  show (ofStep _).parked = (ofStep _).parked
  rw [ofStep, ofStep, he, hi]

/-- Sessions stay alike but for VK while the processor is in a step that does not read VK. -/
theorem after (hs : s.Reachable settings) (hr : ∀ w, s.ComesTo w → ¬Word.Reads w k)
    (he : s.StaysIn events) :
    (s.after events).AlikeBut k (s'.after events) ∧
      ∀ w, (s.after events).ComesTo w ↔ s.ComesTo w := by
  induction he generalizing s' with
  | now s => exact ⟨h, fun _ => Iff.rfl⟩
  | @attempt s random events hd _ ih =>
      have hc : ∀ w, (s.next (.step random)).ComesTo w ↔ s.ComesTo w :=
        fun _ => comesTo_next_step hd
      obtain ⟨ha, hw⟩ := ih (h.next_step (sound_of_reachable hs) hr _) (.next hs _)
        fun w hw => hr w ((hc w).mp hw)
      exact ⟨ha, fun w => (hw w).trans (hc w)⟩
  | @outside s e events ho _ ih =>
      have hc : ∀ w, (s.next e).ComesTo w ↔ s.ComesTo w := fun _ => comesTo_next_of_fromOutside ho
      obtain ⟨ha, hw⟩ := ih (h.next_outside ho) (.next hs _) fun w hw => hr w ((hc w).mp hw)
      exact ⟨ha, fun w => (hw w).trans (hc w)⟩

end AlikeBut

/-- What is in a register that a step does not read is not seen by the step, also not when it
waits for a key in between.  It comes to the same ending, with the same in the journal and for
the observer, and leaves no difference but the one in the register, and not that one either if
it is done and sets the register. -/
theorem unread_register_unseen (hs : s.Reachable settings) (h : s.AlikeBut k s')
    (hk : k.toNat < 16) (hr : ∀ w, s.ComesTo w → ¬Word.Reads w k) (he : s.StaysIn events)
    (random : UInt8) :
    ((s.after events).proceed random).AlikeBut k ((s'.after events).proceed random) ∧
      ∀ w, s.ComesTo w → Word.Sets w (s.after events).machine k →
        ((s.after events).proceed random).ending = .done →
        ((s'.after events).proceed random).machine =
          ((s.after events).proceed random).machine := by
  obtain ⟨ha, hc⟩ := h.after hs hr he
  have hs' : (s.after events).Sound settings := sound_of_reachable (hs.after events)
  have hr' : ∀ w, (s.after events).ComesTo w → ¬Word.Reads w k :=
    fun w hw => hr w ((hc w).mp hw)
  exact ⟨ha.proceed hs' hr' random,
    fun w hw hset hd => ha.proceed_eq hs' hk hr' ((hc w).mpr hw) hset hd⟩

/-- What was in the register that a wait puts the key into is gone. -/
theorem unread_register_unseen_by_wait :
    ∃ m, Machine.build { memorySize := 0xF9, entry := 0xF0 } = .ok m ∧
      let s := (start m).after [.load 0xF0 [0xF5, 0x0A]]
      let s' : Session := ⟨s.machine.setV 5 7, none⟩
      let events : List Event := [.step 0, .act (.press 2)]
      s'.machine ≠ s.machine ∧ (s.proceed 0).ending = .waiting ∧
        ((s.after events).proceed 0).ending = .done ∧
        ((s'.after events).proceed 0).machine = ((s.after events).proceed 0).machine := by
  have hc : Settings.check { memorySize := 0xF9, entry := 0xF0 } = .ok () := rfl
  obtain ⟨m, hb⟩ := Machine.exists_build hc
  refine ⟨m, hb, ?_⟩
  intro s s' events
  have hs : s.Reachable { memorySize := 0xF9, entry := 0xF0 } := .after _ (.start hb)
  have hp : s.parked = none := by
    cases hb
    decide +kernel
  obtain ⟨hf, hn, hd, he, hk⟩ : s.machine.Fetches 0xF50A ∧ s'.machine ≠ s.machine ∧
      (s.proceed 0).ending = .waiting ∧ ((s.after events).proceed 0).ending = .done ∧
      (s.after events).machine.keypad.isShutdown = false := by
    cases hb
    decide +kernel
  have hw : s.ComesTo 0xF50A := (comesTo_iff_fetches hp).mpr hf
  have hr : ∀ w, s.ComesTo w → ¬Word.Reads w 5 := by
    intro w hw
    cases ((comesTo_iff_fetches hp).mp hw).unique hf
    unfold Word.Reads
    decide
  have hst : s.StaysIn events := .attempt hd (.outside trivial (.now _))
  have ha : s.AlikeBut 5 s' := ⟨⟨7, rfl⟩, hp.symm⟩
  obtain ⟨-, h⟩ := unread_register_unseen hs ha (by decide) hr hst 0
  exact ⟨hn, hd, he, h _ hw (.inl ⟨rfl, .inr ⟨rfl, .inr ⟨rfl, hk⟩⟩⟩) he⟩

end Session

end SuperChip
