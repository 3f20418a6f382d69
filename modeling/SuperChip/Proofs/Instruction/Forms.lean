import Mathlib.Tactic.ByContra
import SuperChip.Instruction.Listing
import SuperChip.Proofs.Words

/-!
# Forms of words

No word has two forms, since any two of them give different digits in the same place
(`Form.eq_of_fits`).  A word is decoded just when it has one, and only words without any are
refused (`Word.decoded_by_documented_form`).

Nothing but the free digits of a word is lost.  The digits that are given and those that the
operands are written with make up the word again, with zeros in its free places
(`Form.own_add_digits`).
-/

namespace SuperChip

/-! ## Slots -/

namespace Slot

/-- The digit that a slot brings along, and zero if it is left to the word. -/
def own : Slot → Nat
  | given d => d
  | _ => 0

/-- A digit in a slot, and zero in a free one. -/
def keep : Slot → Nat → Nat
  | free, _ => 0
  | _, e => e

/-- Two slots give different digits. -/
def clashes : Slot → Slot → Bool
  | given d, given e => d != e
  | _, _ => false

theorem not_clashes_of_takes {s t : Slot} {d : Nat} (hs : s.Takes d) (ht : t.Takes d) :
    s.clashes t = false := by
  cases s with
  | given a =>
      cases t with
      | given b => exact bne_eq_false_iff_eq.mpr (hs.symm.trans ht)
      | operand | free => rfl
  | operand | free => rfl

end Slot

namespace Form

variable {f g : Form} {w : UInt16}

/-! ## No word has two forms -/

def all : List Form :=
  [nop, quit, clear, ret, scrollDown, scrollRight, scrollLeft, extend, shrink, jump, call, skipEq,
    skipNe, skipEqReg, load, add, move, or, and, xor, addReg, sub, shr, subN, shl, skipNeReg,
    loadIndex, jumpIndexed, random, draw, skipPressed, skipNotPressed, loadDelay, waitKey, setDelay,
    setSound, addIndex, glyph, largeGlyph, bcd, store, read, saveFlags, loadFlags]

theorem mem_all (f : Form) : f ∈ all := by
  cases f <;> decide

/-- Two forms give different digits somewhere. -/
def clashes (f g : Form) : Bool :=
  f.layout.family != g.layout.family || f.layout.second.clashes g.layout.second ||
    f.layout.third.clashes g.layout.third || f.layout.last.clashes g.layout.last

theorem clashes_of_mem_all : ∀ f ∈ all, ∀ g ∈ all, f ≠ g → f.clashes g = true := by
  decide +kernel

theorem not_clashes_of_fits (hf : f.Fits w) (hg : g.Fits w) : f.clashes g = false := by
  have hfamily : (f.layout.family != g.layout.family) = false :=
    bne_eq_false_iff_eq.mpr (hf.family.symm.trans hg.family)
  rw [clashes, hfamily, Slot.not_clashes_of_takes hf.second hg.second,
    Slot.not_clashes_of_takes hf.third hg.third, Slot.not_clashes_of_takes hf.last hg.last]
  rfl

/-- A word has one form at most. -/
theorem eq_of_fits (hf : f.Fits w) (hg : g.Fits w) : f = g := by
  by_contra hne
  have hclash := clashes_of_mem_all f f.mem_all g g.mem_all hne
  rw [not_clashes_of_fits hf hg] at hclash
  cases hclash

end Form

/-! ## What is recovered -/

/-- An operand is one that a single digit can hold, or three of them for an address. -/
def Operand.InRange : Operand → Prop
  | .register x => x.toNat < 16
  | .count n => n.toNat < 16
  | .address a => a.toNat < 4096
  | _ => True

/-- The operands of an instruction as the last three digits of a word, with a zero where no
operand stands. -/
def Instruction.digits : Instruction → Nat
  | .nop | .clear | .ret | .scrollRight | .scrollLeft | .extend | .shrink => 0
  | .scrollDown n => n.toNat
  | .jump a | .call a | .loadIndex a | .jumpIndexed a => a.toNat
  | .skipEq x kk | .skipNe x kk | .load x kk | .add x kk | .random x kk =>
      256 * x.toNat + kk.toNat
  | .skipEqReg x y | .skipNeReg x y | .move x y | .or x y | .and x y | .xor x y | .addReg x y
  | .sub x y | .subN x y => 256 * x.toNat + 16 * y.toNat
  | .draw x y n => 256 * x.toNat + 16 * y.toNat + n.toNat
  | .shr x | .shl x | .skipPressed x | .skipNotPressed x | .loadDelay x | .waitKey x | .setDelay x
  | .setSound x | .addIndex x | .glyph x | .largeGlyph x | .bcd x | .store x | .read x
  | .saveFlags x | .loadFlags x => 256 * x.toNat

namespace Form

variable {f : Form} {w : UInt16}

/-- The word of a form with zeros for all digits that it does not give. -/
def own (f : Form) : Nat :=
  4096 * f.layout.family + 256 * f.layout.second.own + 16 * f.layout.third.own + f.layout.last.own

/-- A word with zeros for the digits that are free in a form. -/
def keep (f : Form) (w : UInt16) : Nat :=
  4096 * Word.family w + 256 * f.layout.second.keep (Word.x w).toNat +
    16 * f.layout.third.keep (Word.y w).toNat + f.layout.last.keep (Word.n w).toNat

theorem inRange_operands (f : Form) (w : UInt16) :
    ∀ o ∈ (f.instruction w).operands, o.InRange := by
  have hx : (Word.x w).toNat < 16 := by
    rw [Word.toNat_x]
    omega
  have hy : (Word.y w).toNat < 16 := by
    rw [Word.toNat_y]
    omega
  have hn : (Word.n w).toNat < 16 := by
    rw [Word.toNat_n]
    omega
  have ha : (Word.nnn w).toNat < 4096 := by
    rw [Word.toNat_nnn]
    omega
  cases f <;> simp [instruction, Instruction.operands, Operand.InRange, hx, hy, hn, ha]

/-- The digits that a form gives and those of the operands make up the word, but for the digits
that are free. -/
theorem own_add_digits (h : f.Fits w) : f.own + (f.instruction w).digits = f.keep w := by
  have hkk : (Word.kk w).toNat = 16 * (Word.y w).toNat + (Word.n w).toNat := by
    rw [Word.toNat_kk, Word.toNat_y, Word.toNat_n]
    omega
  have hnnn : (Word.nnn w).toNat =
      256 * (Word.x w).toNat + 16 * (Word.y w).toNat + (Word.n w).toNat := by
    rw [Word.toNat_nnn, Word.toNat_x, Word.toNat_y, Word.toNat_n]
    omega
  obtain ⟨hf, hx, hy, hn⟩ := h
  rw [own, keep, hf]
  cases f <;>
    simp_all [layout, Slot.Takes, Slot.own, Slot.keep, instruction, Instruction.digits] <;>
    omega

end Form

namespace Word

/-- A word is decoded just when it has one of the documented forms.  It has no other form then,
and the instruction is the one that the form reads off its digits.  The operands are in range,
and together with what the form gives they say all about the word but its free digits.  A word
without a form is refused, with the word itself and the address that it was fetched from. -/
theorem decoded_by_documented_form (w address : UInt16) :
    (∀ i, Instruction.decode w address = .ok i ↔ ∃ f : Form, f.Fits w ∧ f.instruction w = i) ∧
      (∀ f g : Form, f.Fits w → g.Fits w → f = g) ∧
      (∀ f : Form, f.Fits w → (∀ o ∈ (f.instruction w).operands, o.InRange) ∧
        f.own + (f.instruction w).digits = f.keep w) ∧
      ((∀ f : Form, ¬f.Fits w) →
        Instruction.decode w address = .error (.unsupportedOpcode w address)) := by
  refine ⟨fun i => ?_, fun f g => Form.eq_of_fits, fun f hf => ?_, fun hn => ?_⟩
  · exact Instruction.decode_eq_ok_iff
  · exact ⟨f.inRange_operands w, Form.own_add_digits hf⟩
  · refine Instruction.decode_eq_error_iff.mpr ⟨?_, rfl⟩
    rintro i ⟨f, hf, -⟩
    exact hn f hf

/-- The third digit of `8_C6` is free for a shift, and `8AB8` has no form. -/
theorem decoded_by_documented_form_of_shift :
    Form.shr.Fits 0x81C6 ∧ Instruction.decode 0x81C6 0x200 = .ok (.shr 1) ∧
      Form.shr.own + (Instruction.shr 1).digits = 0x8106 ∧
      Instruction.decode 0x8AB8 0x202 = .error (.unsupportedOpcode 0x8AB8 0x202) := by
  have hf : Form.shr.Fits 0x81C6 := ⟨rfl, trivial, trivial, rfl⟩
  obtain ⟨hdecode, -, hrecover, -⟩ := decoded_by_documented_form 0x81C6 0x200
  refine ⟨hf, (hdecode _).mpr ⟨.shr, hf, rfl⟩, (hrecover .shr hf).2, ?_⟩
  refine (decoded_by_documented_form 0x8AB8 0x202).2.2.2 fun f hf => ?_
  have hnone : Instruction.decode? 0x8AB8 = none := by decide
  cases hnone.symm.trans (Instruction.decode?_of_fits hf)

end Word

end SuperChip
