import SuperChip.Instruction.Decode

/-!
# The words of an instruction

A *form* says what the four digits of a word mean.  The first digit is its family.  Each of the
others is *given*, or it belongs to an *operand*, or it is *free* and says nothing.  The
documented forms are in one table, `Form.layout`, and `Form.instruction` reads the operands of a
word off its digits.

A word *stands for* an instruction when it has a form that reads this instruction off it
(`Word.StandsFor`).  Decoding finds exactly what a word stands for (`decode?_eq_some_iff`).  No
word stands for two instructions, and what a word stands for only names registers that there
are.
-/

namespace SuperChip

/-! ## Digits of a form -/

/-- What one digit of a form is. -/
inductive Slot where
  | given (d : Nat)
  | operand
  | free
deriving DecidableEq

/-- A digit may stand in a slot. -/
def Slot.Takes : Slot → Nat → Prop
  | given d, e => e = d
  | _, _ => True

/-- The four digits of a form, the first one given. -/
structure Layout where
  family : Nat
  second : Slot
  third : Slot
  last : Slot
deriving DecidableEq

/-! ## The documented forms -/

/-- The forms of words, one for each instruction and two for the one that does nothing. -/
inductive Form where
  | nop | quit | clear | ret | scrollDown | scrollRight | scrollLeft | extend | shrink
  | jump | call | skipEq | skipNe | skipEqReg | load | add
  | move | or | and | xor | addReg | sub | shr | subN | shl
  | skipNeReg | loadIndex | jumpIndexed | random | draw | skipPressed | skipNotPressed
  | loadDelay | waitKey | setDelay | setSound | addIndex | glyph | largeGlyph | bcd
  | store | read | saveFlags | loadFlags
deriving DecidableEq

namespace Form

section

open Slot

/-- The digits of a form.  Family 0 does not look at the second digit, and a shift does not look
at the third. -/
def layout : Form → Layout
  | nop => ⟨0x0, free, given 0x0, given 0x0⟩
  | quit => ⟨0x0, free, given 0xF, given 0xD⟩
  | clear => ⟨0x0, free, given 0xE, given 0x0⟩
  | ret => ⟨0x0, free, given 0xE, given 0xE⟩
  | scrollDown => ⟨0x0, free, given 0xC, operand⟩
  | scrollRight => ⟨0x0, free, given 0xF, given 0xB⟩
  | scrollLeft => ⟨0x0, free, given 0xF, given 0xC⟩
  | extend => ⟨0x0, free, given 0xF, given 0xE⟩
  | shrink => ⟨0x0, free, given 0xF, given 0xF⟩
  | jump => ⟨0x1, operand, operand, operand⟩
  | call => ⟨0x2, operand, operand, operand⟩
  | skipEq => ⟨0x3, operand, operand, operand⟩
  | skipNe => ⟨0x4, operand, operand, operand⟩
  | skipEqReg => ⟨0x5, operand, operand, free⟩
  | load => ⟨0x6, operand, operand, operand⟩
  | add => ⟨0x7, operand, operand, operand⟩
  | move => ⟨0x8, operand, operand, given 0x0⟩
  | or => ⟨0x8, operand, operand, given 0x1⟩
  | and => ⟨0x8, operand, operand, given 0x2⟩
  | xor => ⟨0x8, operand, operand, given 0x3⟩
  | addReg => ⟨0x8, operand, operand, given 0x4⟩
  | sub => ⟨0x8, operand, operand, given 0x5⟩
  | shr => ⟨0x8, operand, free, given 0x6⟩
  | subN => ⟨0x8, operand, operand, given 0x7⟩
  | shl => ⟨0x8, operand, free, given 0xE⟩
  | skipNeReg => ⟨0x9, operand, operand, free⟩
  | loadIndex => ⟨0xA, operand, operand, operand⟩
  | jumpIndexed => ⟨0xB, operand, operand, operand⟩
  | random => ⟨0xC, operand, operand, operand⟩
  | draw => ⟨0xD, operand, operand, operand⟩
  | skipPressed => ⟨0xE, operand, given 0x9, given 0xE⟩
  | skipNotPressed => ⟨0xE, operand, given 0xA, given 0x1⟩
  | loadDelay => ⟨0xF, operand, given 0x0, given 0x7⟩
  | waitKey => ⟨0xF, operand, given 0x0, given 0xA⟩
  | setDelay => ⟨0xF, operand, given 0x1, given 0x5⟩
  | setSound => ⟨0xF, operand, given 0x1, given 0x8⟩
  | addIndex => ⟨0xF, operand, given 0x1, given 0xE⟩
  | glyph => ⟨0xF, operand, given 0x2, given 0x9⟩
  | largeGlyph => ⟨0xF, operand, given 0x3, given 0x0⟩
  | bcd => ⟨0xF, operand, given 0x3, given 0x3⟩
  | store => ⟨0xF, operand, given 0x5, given 0x5⟩
  | read => ⟨0xF, operand, given 0x6, given 0x5⟩
  | saveFlags => ⟨0xF, operand, given 0x7, given 0x5⟩
  | loadFlags => ⟨0xF, operand, given 0x8, given 0x5⟩

end

/-- The instruction of a word that has a form, with its operands read off the digits. -/
def instruction (w : UInt16) : Form → Instruction
  | nop | quit => .nop
  | clear => .clear
  | ret => .ret
  | scrollDown => .scrollDown (Word.n w)
  | scrollRight => .scrollRight
  | scrollLeft => .scrollLeft
  | extend => .extend
  | shrink => .shrink
  | jump => .jump (Word.nnn w)
  | call => .call (Word.nnn w)
  | skipEq => .skipEq (Word.x w) (Word.kk w)
  | skipNe => .skipNe (Word.x w) (Word.kk w)
  | skipEqReg => .skipEqReg (Word.x w) (Word.y w)
  | load => .load (Word.x w) (Word.kk w)
  | add => .add (Word.x w) (Word.kk w)
  | move => .move (Word.x w) (Word.y w)
  | or => .or (Word.x w) (Word.y w)
  | and => .and (Word.x w) (Word.y w)
  | xor => .xor (Word.x w) (Word.y w)
  | addReg => .addReg (Word.x w) (Word.y w)
  | sub => .sub (Word.x w) (Word.y w)
  | shr => .shr (Word.x w)
  | subN => .subN (Word.x w) (Word.y w)
  | shl => .shl (Word.x w)
  | skipNeReg => .skipNeReg (Word.x w) (Word.y w)
  | loadIndex => .loadIndex (Word.nnn w)
  | jumpIndexed => .jumpIndexed (Word.nnn w)
  | random => .random (Word.x w) (Word.kk w)
  | draw => .draw (Word.x w) (Word.y w) (Word.n w)
  | skipPressed => .skipPressed (Word.x w)
  | skipNotPressed => .skipNotPressed (Word.x w)
  | loadDelay => .loadDelay (Word.x w)
  | waitKey => .waitKey (Word.x w)
  | setDelay => .setDelay (Word.x w)
  | setSound => .setSound (Word.x w)
  | addIndex => .addIndex (Word.x w)
  | glyph => .glyph (Word.x w)
  | largeGlyph => .largeGlyph (Word.x w)
  | bcd => .bcd (Word.x w)
  | store => .store (Word.x w)
  | read => .read (Word.x w)
  | saveFlags => .saveFlags (Word.x w)
  | loadFlags => .loadFlags (Word.x w)

/-- A word has a form: its digits may stand where they do. -/
structure Fits (f : Form) (w : UInt16) : Prop where
  family : Word.family w = f.layout.family
  second : f.layout.second.Takes (Word.x w).toNat
  third : f.layout.third.Takes (Word.y w).toNat
  last : f.layout.last.Takes (Word.n w).toNat

end Form

namespace Word

/-! ## Digits -/

theorem n_eq_iff {w : UInt16} {b : UInt8} : n w = b ↔ w.toNat % 16 = b.toNat := by
  rw [← UInt8.toNat_inj, toNat_n]

/-- The last two digits, one by one. -/
theorem kk_eq_iff {w : UInt16} {b : UInt8} :
    kk w = b ↔ w.toNat / 16 % 16 = b.toNat / 16 ∧ w.toNat % 16 = b.toNat % 16 := by
  rw [← UInt8.toNat_inj, toNat_kk]
  have := b.toNat_lt
  omega

end Word

namespace Form

variable {f : Form} {w : UInt16}

/-- A word has a form if the last two digits, one by one, may stand where they do. -/
theorem Fits.of_digits (hf : Word.family w = f.layout.family)
    (hx : f.layout.second.Takes (Word.x w).toNat) (hy : f.layout.third.Takes (w.toNat / 16 % 16))
    (hn : f.layout.last.Takes (w.toNat % 16)) : f.Fits w where
  family := hf
  second := hx
  third := by rwa [Word.toNat_y]
  last := by rwa [Word.toNat_n]

/-- A word has a form in which its last two digits are both given. -/
theorem Fits.of_kk {b : UInt8} (hf : Word.family w = f.layout.family)
    (hx : f.layout.second.Takes (Word.x w).toNat) (hk : Word.kk w = b)
    (hy : f.layout.third = .given (b.toNat / 16)) (hn : f.layout.last = .given (b.toNat % 16)) :
    f.Fits w := by
  obtain ⟨hky, hkn⟩ := Word.kk_eq_iff.mp hk
  refine .of_digits hf hx ?_ ?_
  · rw [hy]
    exact hky
  · rw [hn]
    exact hkn

/-- A word has a form in which its last digit is given. -/
theorem Fits.of_n {b : UInt8} (hf : Word.family w = f.layout.family)
    (hx : f.layout.second.Takes (Word.x w).toNat) (hy : f.layout.third.Takes (Word.y w).toNat)
    (hn : Word.n w = b) (hl : f.layout.last = .given b.toNat) : f.Fits w := by
  refine ⟨hf, hx, hy, ?_⟩
  rw [hl, hn]
  rfl

/-- The last two digits of a word that has a form in which both are given. -/
theorem Fits.kk (h : f.Fits w) (b : UInt8) (hy : f.layout.third = .given (b.toNat / 16))
    (hn : f.layout.last = .given (b.toNat % 16)) : Word.kk w = b := by
  obtain ⟨-, -, hyw, hnw⟩ := h
  rw [hy, Word.toNat_y] at hyw
  rw [hn, Word.toNat_n] at hnw
  exact Word.kk_eq_iff.mpr ⟨hyw, hnw⟩

/-- The last digit of a word that has a form in which it is given. -/
theorem Fits.n {d : Nat} (h : f.Fits w) (hn : f.layout.last = .given d) :
    Word.n w = UInt8.ofNat d := by
  have hnw := h.last
  rw [hn] at hnw
  rw [← hnw, UInt8.ofNat_toNat]

end Form

/-! ## What a word stands for -/

/-- A word stands for an instruction: it has a form that reads the instruction off its digits. -/
def Word.StandsFor (w : UInt16) (i : Instruction) : Prop :=
  ∃ f : Form, f.Fits w ∧ f.instruction w = i

namespace Instruction

/-! ## Decoding -/

/-- Family 0 is decoded by its forms. -/
theorem standsFor_of_ofSystem {w : UInt16} {i : Instruction} (hf : Word.family w = 0x0)
    (h : ofSystem w = some i) : Word.StandsFor w i := by
  unfold ofSystem at h
  split at h <;> cases h
  next h1 h2 => exact ⟨.nop, .of_digits hf trivial h1 h2, rfl⟩
  next h1 => exact ⟨.scrollDown, .of_digits hf trivial h1 trivial, rfl⟩
  next h1 h2 => exact ⟨.clear, .of_digits hf trivial h1 h2, rfl⟩
  next h1 h2 => exact ⟨.ret, .of_digits hf trivial h1 h2, rfl⟩
  next h1 h2 => exact ⟨.scrollRight, .of_digits hf trivial h1 h2, rfl⟩
  next h1 h2 => exact ⟨.scrollLeft, .of_digits hf trivial h1 h2, rfl⟩
  next h1 h2 => exact ⟨.quit, .of_digits hf trivial h1 h2, rfl⟩
  next h1 h2 => exact ⟨.extend, .of_digits hf trivial h1 h2, rfl⟩
  next h1 h2 => exact ⟨.shrink, .of_digits hf trivial h1 h2, rfl⟩

/-- Family 8 is decoded by its forms. -/
theorem standsFor_of_ofArithmetic {w : UInt16} {i : Instruction} (hf : Word.family w = 0x8)
    (h : ofArithmetic w = some i) : Word.StandsFor w i := by
  unfold ofArithmetic at h
  split at h <;> cases h
  next hn => exact ⟨.move, .of_digits hf trivial trivial hn, rfl⟩
  next hn => exact ⟨.or, .of_digits hf trivial trivial hn, rfl⟩
  next hn => exact ⟨.and, .of_digits hf trivial trivial hn, rfl⟩
  next hn => exact ⟨.xor, .of_digits hf trivial trivial hn, rfl⟩
  next hn => exact ⟨.addReg, .of_digits hf trivial trivial hn, rfl⟩
  next hn => exact ⟨.sub, .of_digits hf trivial trivial hn, rfl⟩
  next hn => exact ⟨.shr, .of_digits hf trivial trivial hn, rfl⟩
  next hn => exact ⟨.subN, .of_digits hf trivial trivial hn, rfl⟩
  next hn => exact ⟨.shl, .of_digits hf trivial trivial hn, rfl⟩

theorem standsFor_of_ofKey {w : UInt16} {i : Instruction} (hf : Word.family w = 0xE)
    (h : ofKey w = some i) : Word.StandsFor w i := by
  unfold ofKey at h
  split at h <;> cases h
  next h1 h2 => exact ⟨.skipPressed, .of_digits hf trivial h1 h2, rfl⟩
  next h1 h2 => exact ⟨.skipNotPressed, .of_digits hf trivial h1 h2, rfl⟩

theorem standsFor_of_ofDevice {w : UInt16} {i : Instruction} (hf : Word.family w = 0xF)
    (h : ofDevice w = some i) : Word.StandsFor w i := by
  unfold ofDevice at h
  split at h <;> cases h
  next h1 h2 => exact ⟨.loadDelay, .of_digits hf trivial h1 h2, rfl⟩
  next h1 h2 => exact ⟨.waitKey, .of_digits hf trivial h1 h2, rfl⟩
  next h1 h2 => exact ⟨.setDelay, .of_digits hf trivial h1 h2, rfl⟩
  next h1 h2 => exact ⟨.setSound, .of_digits hf trivial h1 h2, rfl⟩
  next h1 h2 => exact ⟨.addIndex, .of_digits hf trivial h1 h2, rfl⟩
  next h1 h2 => exact ⟨.glyph, .of_digits hf trivial h1 h2, rfl⟩
  next h1 h2 => exact ⟨.largeGlyph, .of_digits hf trivial h1 h2, rfl⟩
  next h1 h2 => exact ⟨.bcd, .of_digits hf trivial h1 h2, rfl⟩
  next h1 h2 => exact ⟨.store, .of_digits hf trivial h1 h2, rfl⟩
  next h1 h2 => exact ⟨.read, .of_digits hf trivial h1 h2, rfl⟩
  next h1 h2 => exact ⟨.saveFlags, .of_digits hf trivial h1 h2, rfl⟩
  next h1 h2 => exact ⟨.loadFlags, .of_digits hf trivial h1 h2, rfl⟩

/-- What a word is decoded to is what one of its forms says. -/
theorem standsFor_of_decode? {w : UInt16} {i : Instruction} (h : decode? w = some i) :
    Word.StandsFor w i := by
  unfold decode? at h
  split at h
  next hf => exact standsFor_of_ofSystem hf h
  next hf => cases h; exact ⟨.jump, ⟨hf, trivial, trivial, trivial⟩, rfl⟩
  next hf => cases h; exact ⟨.call, ⟨hf, trivial, trivial, trivial⟩, rfl⟩
  next hf => cases h; exact ⟨.skipEq, ⟨hf, trivial, trivial, trivial⟩, rfl⟩
  next hf => cases h; exact ⟨.skipNe, ⟨hf, trivial, trivial, trivial⟩, rfl⟩
  next hf => cases h; exact ⟨.skipEqReg, ⟨hf, trivial, trivial, trivial⟩, rfl⟩
  next hf => cases h; exact ⟨.load, ⟨hf, trivial, trivial, trivial⟩, rfl⟩
  next hf => cases h; exact ⟨.add, ⟨hf, trivial, trivial, trivial⟩, rfl⟩
  next hf => exact standsFor_of_ofArithmetic hf h
  next hf => cases h; exact ⟨.skipNeReg, ⟨hf, trivial, trivial, trivial⟩, rfl⟩
  next hf => cases h; exact ⟨.loadIndex, ⟨hf, trivial, trivial, trivial⟩, rfl⟩
  next hf => cases h; exact ⟨.jumpIndexed, ⟨hf, trivial, trivial, trivial⟩, rfl⟩
  next hf => cases h; exact ⟨.random, ⟨hf, trivial, trivial, trivial⟩, rfl⟩
  next hf => cases h; exact ⟨.draw, ⟨hf, trivial, trivial, trivial⟩, rfl⟩
  next hf => exact standsFor_of_ofKey hf h
  next hf => exact standsFor_of_ofDevice hf h
  next => cases h

/-- A word that has a form is decoded by it. -/
theorem decode?_of_fits {f : Form} {w : UInt16} (h : f.Fits w) :
    decode? w = some (f.instruction w) := by
  obtain ⟨hf, -, hy, hn⟩ := h
  cases f <;>
    simp_all [Form.layout, Slot.Takes, Word.toNat_y, Word.toNat_n, Form.instruction, decode?,
      ofSystem, ofArithmetic, ofKey, ofDevice]

theorem decode?_of_standsFor {w : UInt16} {i : Instruction} (h : Word.StandsFor w i) :
    decode? w = some i := by
  obtain ⟨f, hf, rfl⟩ := h
  exact decode?_of_fits hf

/-- Decoding finds what a word stands for. -/
theorem decode?_eq_some_iff {w : UInt16} {i : Instruction} :
    decode? w = some i ↔ Word.StandsFor w i :=
  ⟨standsFor_of_decode?, decode?_of_standsFor⟩

theorem decode_eq_ok_iff {w address : UInt16} {i : Instruction} :
    decode w address = .ok i ↔ Word.StandsFor w i := by
  rw [← decode?_eq_some_iff, decode]
  cases decode? w with
  | none => simp
  | some j => simp

/-- A word that stands for nothing is refused, and so is no other. -/
theorem decode_eq_error_iff {w address : UInt16} {fault : Fault} :
    decode w address = .error fault ↔
      (∀ i, ¬Word.StandsFor w i) ∧ fault = .unsupportedOpcode w address := by
  simp only [← decode?_eq_some_iff, decode]
  cases decode? w with
  | none => simp [eq_comm]
  | some j => simp

/-- There is no form for family 8 with a last digit of 8. -/
example : decode 0x8AB8 0x202 = .error (.unsupportedOpcode 0x8AB8 0x202) := rfl

/-! ## Registers -/

/-- The numbers of the registers an instruction names. -/
def registers : Instruction → List UInt8
  | .skipEq x _ | .skipNe x _ | .load x _ | .add x _ | .random x _ | .shr x | .shl x
  | .skipPressed x | .skipNotPressed x | .loadDelay x | .waitKey x | .setDelay x | .setSound x
  | .addIndex x | .glyph x | .largeGlyph x | .bcd x | .store x | .read x | .saveFlags x
  | .loadFlags x => [x]
  | .skipEqReg x y | .skipNeReg x y | .move x y | .or x y | .and x y | .xor x y | .addReg x y
  | .sub x y | .subN x y | .draw x y _ => [x, y]
  | _ => []

/-- An instruction names registers that there are. -/
def Named (i : Instruction) : Prop := ∀ x ∈ i.registers, x.toNat < 16

end Instruction

namespace Word.StandsFor

/-- A word stands for one instruction at most. -/
theorem unique {w : UInt16} {i j : Instruction} (hi : StandsFor w i) (hj : StandsFor w j) :
    i = j := by
  rw [← Instruction.decode?_eq_some_iff] at hi hj
  exact Option.some.inj (hi.symm.trans hj)

/-- What a word stands for names registers that there are. -/
theorem named {w : UInt16} {i : Instruction} (h : StandsFor w i) : i.Named := by
  have hx : (x w).toNat < 16 := by
    rw [toNat_x]
    omega
  have hy : (y w).toNat < 16 := by
    rw [toNat_y]
    omega
  obtain ⟨f, -, rfl⟩ := h
  cases f <;> simp [Form.instruction, Instruction.Named, Instruction.registers, hx, hy]

end Word.StandsFor

end SuperChip
