import Mathlib.Data.Nat.Bitwise
import SuperChip.Proofs.Machine.Failure

/-!
# Arithmetic

Families 7 and 8 calculate with the V registers.  `Word.Calculates` says what they come to,
word by word, in the arithmetic of whole numbers: `a` and `b` are what VX and VY held before,
a result is taken modulo 256, and a flag is a statement about `a` and `b`.

A calculation without a flag replaces VX and no other register, so VF only where X is F
(`Bank.Puts`).  One with a flag has the flag in VF in any case, and its result in VX unless
X is F (`Bank.PutsFlag`).  X and Y may be the same number, and each of them may be F.  Since
`a` and `b` are taken before anything is written, nothing depends on that.
-/

namespace SuperChip

/-! ## Bytes as whole numbers -/

section Bytes

variable (a b : UInt8)

theorem toNat_sub_eq_emod : ((a - b).toNat : Int) = ((a.toNat : Int) - b.toNat) % 256 := by
  have ha := a.toNat_lt
  have hb := b.toNat_lt
  rw [UInt8.toNat_sub]
  omega

theorem toNat_half : (a >>> 1).toNat = a.toNat / 2 := by
  rw [UInt8.toNat_shiftRight]
  exact Nat.shiftRight_eq_div_pow a.toNat 1

theorem toNat_twice : (a <<< 1).toNat = 2 * a.toNat % 256 := by
  rw [UInt8.toNat_shiftLeft]
  exact congrArg (· % 256) ((Nat.shiftLeft_eq a.toNat 1).trans (Nat.mul_comm _ _))

theorem lowest_bit_iff : (a &&& 0x01 == 0x01) = true ↔ a.toNat % 2 = 1 := by
  rw [beq_iff_eq, ← UInt8.toNat_inj, UInt8.toNat_and]
  exact Eq.congr_left (Nat.and_one_is_mod a.toNat)

theorem highest_bit_iff : (a &&& 0x80 == 0x80) = true ↔ 128 ≤ a.toNat := by
  have ha := a.toNat_lt
  have hbit : a.toNat &&& 2 ^ 7 = (a.toNat.testBit 7).toNat * 2 ^ 7 := Nat.and_two_pow _ _
  rw [beq_iff_eq, ← UInt8.toNat_inj, UInt8.toNat_and]
  refine (Eq.congr_left hbit).trans ?_
  rw [Nat.testBit_eq_decide_div_mod_eq]
  by_cases h : 128 ≤ a.toNat
  · have hone : a.toNat / 128 % 2 = 1 := by omega
    simp [hone, h]
  · have hzero : a.toNat / 128 % 2 = 0 := by omega
    simp [hzero, h]

end Bytes

/-! ## Results and flags -/

namespace Bank

/-- From one bank to another the byte of VX was replaced by a result, and no other byte. -/
structure Puts (v v' : Bank) (x : UInt8) (result : Int) : Prop where
  result : ((v'.read x).toNat : Int) = result
  others : ∀ k, k ≠ x → v'.read k = v.read k

/-- From one bank to another the byte of VX was replaced by a result, and then that of VF by
a flag. -/
structure PutsFlag (v v' : Bank) (x : UInt8) (result : Int) (flag : Prop) : Prop where
  one : v'.read flagRegister = 1 ↔ flag
  zero : v'.read flagRegister = 0 ↔ ¬flag
  result : x ≠ flagRegister → ((v'.read x).toNat : Int) = result
  others : ∀ k, k ≠ x → k ≠ flagRegister → v'.read k = v.read k

variable {v : Bank} {x value : UInt8} {result : Int}

theorem puts_write (hx : x.toNat < 16) (h : (value.toNat : Int) = result) :
    v.Puts (v.write x value) x result where
  result := by
    rw [read_write hx, if_pos rfl]
    exact h
  others _ hk := read_write_of_ne hk

/-- The flag is written last, so it is what stays where X is F. -/
theorem putsFlag_write {p : Prop} {flag : Bool} (hx : x.toNat < 16)
    (h : (value.toNat : Int) = result) (hp : flag = true ↔ p) :
    v.PutsFlag ((v.write x value).write flagRegister (if flag then 1 else 0)) x result p := by
  have hputs : v.Puts (v.write x value) x result := puts_write hx h
  have hflag : ((v.write x value).write flagRegister (if flag then 1 else 0)).read flagRegister =
      if flag then 1 else 0 := by
    rw [read_write (by decide), if_pos rfl]
  refine ⟨?_, ?_, fun hne => ?_, fun k hk hkf => ?_⟩
  · rw [hflag, ← hp]
    cases flag <;> decide
  · rw [hflag, ← hp]
    cases flag <;> decide
  · rw [read_write_of_ne hne]
    exact hputs.result
  · rw [read_write_of_ne hkf]
    exact hputs.others k hk

end Bank

/-! ## Words that calculate -/

namespace Word

/-- A word of family 7, or one of those of family 8 that stand for something. -/
def IsArithmetic (w : UInt16) : Prop :=
  family w = 0x7 ∨
    family w = 0x8 ∧ n w ∈ ([0x0, 0x1, 0x2, 0x3, 0x4, 0x5, 0x6, 0x7, 0xE] : List UInt8)

/-- What a word makes of the V registers where VX holds `a` and VY holds `b`. -/
structure Calculates (w : UInt16) (a b : Nat) (v v' : Bank) : Prop where
  /-- `7___` adds a byte, without a flag. -/
  addByte : family w = 0x7 → v.Puts v' (x w) ((a + (kk w).toNat) % 256 : Nat)
  /-- `8__0` copies VY. -/
  copy : family w = 0x8 → n w = 0x0 → v.Puts v' (x w) b
  /-- `8__1` has the bits of either. -/
  or : family w = 0x8 → n w = 0x1 → v.Puts v' (x w) (a ||| b : Nat)
  /-- `8__2` has the bits of both. -/
  and : family w = 0x8 → n w = 0x2 → v.Puts v' (x w) (a &&& b : Nat)
  /-- `8__3` has the bits of just one of the two. -/
  xor : family w = 0x8 → n w = 0x3 → v.Puts v' (x w) (a ^^^ b : Nat)
  /-- `8__4` adds.  The flag is the carry. -/
  add : family w = 0x8 → n w = 0x4 → v.PutsFlag v' (x w) ((a + b) % 256 : Nat) (255 < a + b)
  /-- `8__5` takes VY away from VX.  The flag is on unless it borrows. -/
  sub : family w = 0x8 → n w = 0x5 → v.PutsFlag v' (x w) (((a : Int) - b) % 256) (b ≤ a)
  /-- `8__6` halves VX, whatever VY is.  The flag is the bit that is lost. -/
  halve : family w = 0x8 → n w = 0x6 → v.PutsFlag v' (x w) (a / 2 : Nat) (a % 2 = 1)
  /-- `8__7` takes VX away from VY.  The flag is on unless it borrows. -/
  subFrom : family w = 0x8 → n w = 0x7 → v.PutsFlag v' (x w) (((b : Int) - a) % 256) (a ≤ b)
  /-- `8__E` doubles VX, whatever VY is.  The flag is the bit that is lost. -/
  double : family w = 0x8 → n w = 0xE → v.PutsFlag v' (x w) (2 * a % 256 : Nat) (128 ≤ a)

variable {w : UInt16}

/-- A word of arithmetic stands for an instruction that changes V registers only. -/
theorem IsArithmetic.standsFor (h : IsArithmetic w) :
    ∃ i, StandsFor w i ∧ i.footprint = [.v] := by
  obtain hf | ⟨hf, hn⟩ := h
  · exact ⟨_, ⟨.add, ⟨hf, trivial, trivial, trivial⟩, rfl⟩, rfl⟩
  · simp only [List.mem_cons, List.not_mem_nil, or_false] at hn
    rcases hn with hn | hn | hn | hn | hn | hn | hn | hn | hn
    · exact ⟨_, ⟨.move, .of_n hf trivial trivial hn rfl, rfl⟩, rfl⟩
    · exact ⟨_, ⟨.or, .of_n hf trivial trivial hn rfl, rfl⟩, rfl⟩
    · exact ⟨_, ⟨.and, .of_n hf trivial trivial hn rfl, rfl⟩, rfl⟩
    · exact ⟨_, ⟨.xor, .of_n hf trivial trivial hn rfl, rfl⟩, rfl⟩
    · exact ⟨_, ⟨.addReg, .of_n hf trivial trivial hn rfl, rfl⟩, rfl⟩
    · exact ⟨_, ⟨.sub, .of_n hf trivial trivial hn rfl, rfl⟩, rfl⟩
    · exact ⟨_, ⟨.shr, .of_n hf trivial trivial hn rfl, rfl⟩, rfl⟩
    · exact ⟨_, ⟨.subN, .of_n hf trivial trivial hn rfl, rfl⟩, rfl⟩
    · exact ⟨_, ⟨.shl, .of_n hf trivial trivial hn rfl, rfl⟩, rfl⟩

end Word

namespace Machine

variable {m : Machine} {w : UInt16} {random : UInt8} {i : Instruction}

/-- What a word stands for calculates what the word says. -/
theorem calculates_execute (h : Word.StandsFor w i) :
    Word.Calculates w (m.v (Word.x w)).toNat (m.v (Word.y w)).toNat m.registers.v
      (m.execute random i).machine.registers.v := by
  have hx : (Word.x w).toNat < 16 := by
    rw [Word.toNat_x]
    omega
  constructor
  case addByte =>
    intro hf
    cases h.unique ⟨.add, ⟨hf, trivial, trivial, trivial⟩, rfl⟩
    exact Bank.puts_write hx (congrArg Nat.cast (UInt8.toNat_add _ _))
  case copy =>
    intro hf hn
    cases h.unique ⟨.move, .of_n hf trivial trivial hn rfl, rfl⟩
    exact Bank.puts_write hx rfl
  case or =>
    intro hf hn
    cases h.unique ⟨.or, .of_n hf trivial trivial hn rfl, rfl⟩
    exact Bank.puts_write hx (congrArg Nat.cast (UInt8.toNat_or _ _))
  case and =>
    intro hf hn
    cases h.unique ⟨.and, .of_n hf trivial trivial hn rfl, rfl⟩
    exact Bank.puts_write hx (congrArg Nat.cast (UInt8.toNat_and _ _))
  case xor =>
    intro hf hn
    cases h.unique ⟨.xor, .of_n hf trivial trivial hn rfl, rfl⟩
    exact Bank.puts_write hx (congrArg Nat.cast (UInt8.toNat_xor _ _))
  case add =>
    intro hf hn
    cases h.unique ⟨.addReg, .of_n hf trivial trivial hn rfl, rfl⟩
    exact Bank.putsFlag_write hx (congrArg Nat.cast (UInt8.toNat_add _ _)) decide_eq_true_iff
  case sub =>
    intro hf hn
    cases h.unique ⟨.sub, .of_n hf trivial trivial hn rfl, rfl⟩
    exact Bank.putsFlag_write hx (toNat_sub_eq_emod _ _)
      (decide_eq_true_iff.trans UInt8.le_iff_toNat_le)
  case halve =>
    intro hf hn
    cases h.unique ⟨.shr, .of_n hf trivial trivial hn rfl, rfl⟩
    exact Bank.putsFlag_write hx (congrArg Nat.cast (toNat_half _)) (lowest_bit_iff _)
  case subFrom =>
    intro hf hn
    cases h.unique ⟨.subN, .of_n hf trivial trivial hn rfl, rfl⟩
    exact Bank.putsFlag_write hx (toNat_sub_eq_emod _ _)
      (decide_eq_true_iff.trans UInt8.le_iff_toNat_le)
  case double =>
    intro hf hn
    cases h.unique ⟨.shl, .of_n hf trivial trivial hn rfl, rfl⟩
    exact Bank.putsFlag_write hx (congrArg Nat.cast (toNat_twice _)) (highest_bit_iff _)

/-- What a word of arithmetic stands for is done in any case. -/
theorem execute_done_of_arithmetic (hw : Word.IsArithmetic w) (h : Word.StandsFor w i) :
    (m.execute random i).ending = .done ∧ (m.execute random i).entries = [] := by
  obtain hf | ⟨hf, -⟩ := hw
  · cases h.unique ⟨.add, ⟨hf, trivial, trivial, trivial⟩, rfl⟩
    exact ⟨rfl, rfl⟩
  · obtain ⟨f, hfits, rfl⟩ := h
    cases f with
    | move | or | and | xor | addReg | sub | shr | subN | shl => exact ⟨rfl, rfl⟩
    | _ => cases hf.symm.trans hfits.family

/-- Whatever the registers hold and whichever of them a word names, a step that comes to a
word of arithmetic is done.  It makes of the V registers what the arithmetic of whole numbers
says, moves the program counter behind the word, and leaves all else. -/
theorem arithmetic_on_all_registers (hf : m.Fetches w) (hw : Word.IsArithmetic w) :
    let s := m.step random
    s.ending = .done ∧ s.entries = [] ∧
      Word.Calculates w (m.v (Word.x w)).toNat (m.v (Word.y w)).toNat
        m.registers.v s.machine.registers.v ∧
      s.machine.pc = m.advance.pc ∧
      ∀ p : Part, p ≠ .v → p ≠ .pc → p.Same m s.machine := by
  intro s
  obtain ⟨i, hi, hfoot⟩ := hw.standsFor
  have hs : s = m.advance.perform random ⟨m.pc, w, i⟩ := step_of_standsFor hf hi random
  obtain ⟨hd, he⟩ : (m.advance.execute random i).ending = .done ∧
      (m.advance.execute random i).entries = [] := execute_done_of_arithmetic hw hi
  have hsame {p : Part} (hp : p ≠ .v) : p.Same m.advance (m.advance.execute random i).machine :=
    same_execute random (by simp [hfoot, hp])
  rw [hs]
  exact ⟨hd, he, calculates_execute (m := m.advance) hi, hsame (p := .pc) (by decide),
    fun p hp hpc => (same_advance hpc).trans (hsame hp)⟩

/-- `81F4` takes VF for an operand and then writes the carry there. -/
theorem arithmetic_on_flag_register :
    ∃ m, build { memorySize := 0xF2, entry := 0xF0 } = .ok m ∧
      let m₀ := ((Session.start m).next (.load 0xF0 [0x81, 0xF4])).machine
      let m₁ := (m₀.setV 1 200).setV 0xF 100
      ((m₁.step 0).machine.v 1).toNat = 44 ∧ (m₁.step 0).machine.v 0xF = 1 := by
  have hc : Settings.check { memorySize := 0xF2, entry := 0xF0 } = .ok () := rfl
  obtain ⟨m, hb⟩ := exists_build hc
  refine ⟨m, hb, ?_⟩
  intro m₀ m₁
  obtain ⟨hf, ha, hv⟩ : m₁.Fetches 0x81F4 ∧ (m₁.v (Word.x 0x81F4)).toNat = 200 ∧
      (m₁.v (Word.y 0x81F4)).toNat = 100 := by
    cases hb
    decide +kernel
  have hw : Word.IsArithmetic 0x81F4 := .inr ⟨rfl, by decide⟩
  obtain ⟨-, -, hcalc, -⟩ := @arithmetic_on_all_registers m₁ 0x81F4 0 hf hw
  rw [ha, hv] at hcalc
  have hadd := hcalc.add rfl rfl
  exact ⟨Int.ofNat.inj (hadd.result (by decide)), hadd.one.mpr (by decide)⟩

end Machine

end SuperChip
