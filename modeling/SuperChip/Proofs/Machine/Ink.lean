import SuperChip.Proofs.Machine.Drawing

/-!
# Where a draw has ink

A draw has *ink* on a pixel if a set bit of the sprite comes to lie there: the sprite begins at
the place that two V registers hold before the draw, it wraps in both directions, and its bits
are those of the bytes from the address register on, the highest bit of a byte being the
leftmost one (`Machine.Inks`).

Where memory holds the whole sprite the draw is done.  It turns over the pixels on which it has
ink, all at once, VF says whether one of them was lit before, and nothing else changes
(`Machine.draw_turns_ink_over`).  The two registers are read before VF is written, so VF may
be one of them.
-/

namespace SuperChip.Machine

variable {m : Machine} {x y n random : UInt8} {i j a b : Nat}

/-! ## Bits of the sprite -/

/-- A byte of a row is among those of the first rows just if its row is one of them. -/
theorem mul_add_lt_mul_iff {rows rowBytes q : Nat} (hq : q < rowBytes) :
    j * rowBytes + q < rows * rowBytes ↔ j < rows := by
  have hpos : 0 < rowBytes := Nat.zero_lt_of_lt hq
  rw [← Nat.div_lt_iff_lt_mul hpos, Nat.mul_comm j, Nat.mul_add_div hpos, Nat.div_eq_of_lt hq,
    Nat.add_zero]

/-- The bit in a column and a row of the sprite that is drawn for a count is set. -/
theorem bit_sprite :
    (m.sprite n).bit i j = true ↔
      j < (m.spriteShape n).1 ∧ i < 8 * (m.spriteShape n).2 ∧
        (m.ram.cell (m.index.toNat + j * (m.spriteShape n).2 + i / 8)).toNat.testBit (7 - i % 8) =
          true := by
  have hbytes (k : Nat) : (m.sprite n).bytes[k]? =
      if k < (m.spriteShape n).1 * (m.spriteShape n).2 then
        some (m.ram.cell (m.index.toNat + k)) else none := by
    rw [sprite, List.getElem?_map]
    split
    next hk => rw [List.getElem?_range hk, Option.map_some]
    next hk => rw [List.getElem?_eq_none (by simpa using hk), Option.map_none]
  have hrow : (m.sprite n).rowBytes = (m.spriteShape n).2 := rfl
  rw [Sprite.bit_eq_true_iff, hbytes, hrow, Nat.mul_comm 8, and_left_comm]
  refine and_congr_right fun hi => ?_
  have hq : i / 8 < (m.spriteShape n).2 := by omega
  by_cases hj : j < (m.spriteShape n).1
  · simp [hj, (mul_add_lt_mul_iff hq).mpr hj, Nat.add_assoc]
  · simp [hj, mt (mul_add_lt_mul_iff hq).mp hj]

/-! ## Ink -/

/-- A draw has ink on a pixel. -/
def Inks (m : Machine) (x y n : UInt8) (a b : Nat) : Prop :=
  ∃ r < (m.spriteShape n).1, ∃ c < 8 * (m.spriteShape n).2,
    a = ((m.v x).toNat + c) % m.surface.width ∧ b = ((m.v y).toNat + r) % m.surface.height ∧
      (m.ram.cell (m.index.toNat + r * (m.spriteShape n).2 + c / 8)).toNat.testBit (7 - c % 8) =
        true

instance (m : Machine) (x y n : UInt8) (a b : Nat) : Decidable (m.Inks x y n a b) := by
  unfold Inks
  infer_instance

/-- A draw has ink where its stamp marks the surface. -/
theorem marks_stamp_iff : (m.stamp x y n).Marks m.surface.extended a b ↔ m.Inks x y n a b := by
  constructor
  · rintro ⟨c, r, hb, ha, hb'⟩
    obtain ⟨hr, hc, hbit⟩ := bit_sprite.mp hb
    exact ⟨r, hr, c, hc, ha.symm, hb'.symm, hbit⟩
  · rintro ⟨r, hr, c, hc, ha, hb, hbit⟩
    exact ⟨c, r, bit_sprite.mpr ⟨hr, hc, hbit⟩, ha.symm, hb.symm⟩

/-! ## Draws -/

/-- A draw is done where memory holds the whole sprite. -/
theorem executeDraw_of_fits
    (h : m.index.toNat + (m.spriteShape n).1 * (m.spriteShape n).2 ≤ m.ram.size) :
    (m.executeDraw x y n).ending = .done ∧ (m.executeDraw x y n).entries = [] := by
  have hs : (m.setFlag false).ram.slice (m.setFlag false).index
      ((m.spriteShape n).1 * (m.spriteShape n).2) = .ok _ := Ram.slice_eq_ok_iff.mpr ⟨h, rfl⟩
  rw [executeDraw]
  dsimp only
  rw [hs]
  exact ⟨rfl, rfl⟩

theorem v_executeDraw {k : UInt8} (hk : k ≠ flagRegister) :
    (m.executeDraw x y n).machine.v k = m.v k := by
  rw [executeDraw]
  dsimp only
  split
  · exact (v_setFlag_of_ne _ hk).trans (v_setFlag_of_ne false hk)
  · exact v_setFlag_of_ne false hk

/-- Where memory holds the whole sprite, and the count is a nibble as it is in every word, the
draw is done.  It turns over the pixels on which it has ink and no others.  VF is one if a pixel
with ink was lit before, and else zero.  Everything else is as before: the size of the surface,
the other registers and the rest of the machine. -/
theorem draw_turns_ink_over (hs : m.surface.Full) (hn : n.toNat < 16)
    (hfit : m.index.toNat + (m.spriteShape n).1 * (m.spriteShape n).2 ≤ m.ram.size) :
    let outcome := m.execute random (.draw x y n)
    let m' := outcome.machine
    (outcome.ending = .done ∧ outcome.entries = []) ∧
      m.spriteShape n = (if m.surface.extended ∧ n = 0 then (16, 2) else (n.toNat, 1)) ∧
      (m'.surface.extended = m.surface.extended ∧ m'.surface.Full) ∧
      (∀ a b, m.surface.Covers a b →
        m'.surface.get a b = (m.surface.get a b ^^ decide (m.Inks x y n a b))) ∧
      (m'.v flagRegister = 1 ↔ ∃ a b, m.Inks x y n a b ∧ m.surface.get a b = true) ∧
      (m'.v flagRegister = 0 ↔ ¬∃ a b, m.Inks x y n a b ∧ m.surface.get a b = true) ∧
      (∀ k, k ≠ flagRegister → m'.v k = m.v k) ∧
      ∀ p : Part, p ≠ .v → p ≠ .surface → p.Same m m' := by
  intro outcome m'
  have hdone : (m.executeDraw x y n).ending = .done ∧ (m.executeDraw x y n).entries = [] :=
    executeDraw_of_fits hfit
  obtain ⟨hsurface, hflag⟩ : m'.surface = (m.surface.stamp (m.stamp x y n)).1 ∧
      m'.v flagRegister = if (m.surface.stamp (m.stamp x y n)).2 then 1 else 0 :=
    executeDraw_of_done hdone.1
  have hfits : (m.stamp x y n).sprite.Fits m.surface.extended := fits_sprite hn
  have hhit : (m.surface.stamp (m.stamp x y n)).2 = true ↔
      ∃ a b, m.Inks x y n a b ∧ m.surface.get a b = true := by
    simp only [Surface.collides_stamp hs hfits, marks_stamp_iff]
  refine ⟨hdone, rfl, ⟨?_, ?_⟩, fun a b _ => ?_, ?_, ?_, fun k => v_executeDraw, fun p hv hp => ?_⟩
  · rw [hsurface, Surface.extended_stamp]
  · rw [hsurface]
    exact Surface.full_stamp hs _
  · rw [hsurface, Surface.get_stamp hs hfits, decide_eq_decide.mpr marks_stamp_iff]
  · rw [hflag, ← hhit]
    exact flag_eq_one_iff
  · rw [hflag, ← hhit]
    cases (m.surface.stamp (m.stamp x y n)).2 <;> decide
  · exact same_executeDraw x y n hv hp

/-- A large sprite at a place that VF alone gives, of which the second byte of the first row
wraps and comes to lie on a lit pixel. -/
theorem draw_turns_ink_over_at_flag :
    ∃ m, build { memorySize := 0xF2 } = .ok m ∧
      let m₀ := ((m.change (.extend true)).change (.set 0 56 true)).setV 0xF 120
      let m₁ := (m₀.execute 0 (.draw 0xF 0xF 0)).machine
      m₀.surface.get 0 56 = true ∧ m₁.surface.get 0 56 = false ∧
        m₁.surface.get 120 56 = true ∧ m₁.v flagRegister = 1 ∧ m₁.pc = m₀.pc := by
  have hc : Settings.check { memorySize := 0xF2 } = .ok () := rfl
  obtain ⟨m, hb⟩ := exists_build hc
  refine ⟨m, hb, ?_⟩
  intro m₀ m₁
  have hs : m₀.surface.Full :=
    (((sound_build hb).change (.extend true)).change (.set 0 56 true)).full
  obtain ⟨hn, hfit⟩ : (0 : UInt8).toNat < 16 ∧
      m₀.index.toNat + (m₀.spriteShape 0).1 * (m₀.spriteShape 0).2 ≤ m₀.ram.size := by
    cases hb
    decide +kernel
  have hblank : m₀.surface = (Surface.blank true).set 0 56 true := by
    cases hb
    rfl
  have hcovers : (Surface.blank true).Covers 0 56 := by decide
  have hlit : m₀.surface.get 0 56 = true := by
    rw [hblank, Surface.get_set (Surface.full_blank true) hcovers, if_pos ⟨rfl, rfl⟩]
  have hdark : m₀.surface.get 120 56 = false := by
    rw [hblank, Surface.get_set (Surface.full_blank true) hcovers, if_neg (by decide),
      Surface.get_blank]
  obtain ⟨hleft, hright⟩ : m₀.surface.Covers 0 56 ∧ m₀.surface.Covers 120 56 := by
    rw [hblank]
    decide
  have hwrapped : m₀.Inks 0xF 0xF 0 0 56 := by
    cases hb
    exact ⟨0, by decide +kernel, 8, by decide +kernel⟩
  have hfirst : m₀.Inks 0xF 0xF 0 120 56 := by
    cases hb
    exact ⟨0, by decide +kernel, 0, by decide +kernel⟩
  obtain ⟨-, -, -, hget, hflag, -, -, hsame⟩ :=
    @draw_turns_ink_over m₀ 0xF 0xF 0 0 hs hn hfit
  refine ⟨hlit, ?_, ?_, hflag.mpr ⟨0, 56, hwrapped, hlit⟩, hsame .pc (by decide) (by decide)⟩
  · rw [hget 0 56 hleft, hlit, decide_eq_true hwrapped]
    rfl
  · rw [hget 120 56 hright, hdark, decide_eq_true hfirst]
    rfl

end SuperChip.Machine
