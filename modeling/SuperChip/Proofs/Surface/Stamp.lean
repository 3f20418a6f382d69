import Mathlib.Data.List.Nodup
import Mathlib.Data.Nat.ModEq
import SuperChip.Proofs.Surface.Blit

/-!
# Stamps

A *stamp* is a sprite at a place.  It *marks* the places of a surface that a set bit of
the sprite comes to lie on, wrapped in both directions.

A blit turns pixels over one by one and looks at each before it does.  On a surface that
the sprite fits on no two bits come to lie on one pixel (`nodup_landings`).
So a blit turns the marked pixels over all at once (`get_stamp`), and it collides if one
of them was lit before (`collides_stamp`).

Of several stamps, one after the other, only their number on each pixel counts, and of
this only whether it is odd (`get_stamps`).  Their order does not count, and a stamp that
is put on twice is gone.
-/

namespace SuperChip

/-! ## Bits of a sprite -/

namespace Sprite

/-- Whether the bit in a column and a row is set, the highest bit of a byte being its
first column. -/
def bit (s : Sprite) (i j : Nat) : Bool :=
  i < s.rowBytes * 8 && (s.bytes[j * s.rowBytes + i / 8]?).any (·.toNat.testBit (7 - i % 8))

variable {s : Sprite} {i j : Nat}

theorem bit_eq_true_iff :
    s.bit i j = true ↔ i < s.rowBytes * 8 ∧
      ∃ b, s.bytes[j * s.rowBytes + i / 8]? = some b ∧ b.toNat.testBit (7 - i % 8) = true := by
  simp [bit, Option.any_eq_true]

theorem mem_litColumns {first : Nat} {b : UInt8} :
    i ∈ litColumns first b ↔ ∃ k < 8, b.toNat.testBit (7 - k) = true ∧ first + k = i := by
  simp [litColumns, and_assoc]

/-- The cells of a sprite are where its bits are set. -/
theorem mem_cells (h : 0 < s.rowBytes) : (i, j) ∈ s.cells ↔ s.bit i j = true := by
  rw [bit_eq_true_iff]
  simp only [cells, List.mem_flatMap, List.mem_map, Prod.exists, List.mem_zipIdx_iff_getElem?,
    mem_litColumns, Prod.mk.injEq]
  constructor
  · rintro ⟨b, k, hb, column, ⟨q, hq, hbit, rfl⟩, rfl, rfl⟩
    have hk : k % s.rowBytes < s.rowBytes := Nat.mod_lt k h
    have hi : (k % s.rowBytes * 8 + q) / 8 = k % s.rowBytes := by omega
    have hr : (k % s.rowBytes * 8 + q) % 8 = q := by omega
    refine ⟨by omega, b, ?_, by rw [hr]; exact hbit⟩
    rw [hi, Nat.mul_comm, Nat.div_add_mod]
    exact hb
  · rintro ⟨hi, b, hb, hbit⟩
    have hd : i / 8 < s.rowBytes := by omega
    have hm : (j * s.rowBytes + i / 8) % s.rowBytes = i / 8 := by
      rw [Nat.mul_comm, Nat.mul_add_mod, Nat.mod_eq_of_lt hd]
    have hq : (j * s.rowBytes + i / 8) / s.rowBytes = j := by
      rw [Nat.mul_comm, Nat.mul_add_div h, Nat.div_eq_of_lt hd, Nat.add_zero]
    refine ⟨b, j * s.rowBytes + i / 8, hb, i, ⟨i % 8, Nat.mod_lt _ (by decide), hbit, ?_⟩, rfl, hq⟩
    rw [hm]
    omega

theorem nodup_litColumns (first : Nat) (b : UInt8) : (litColumns first b).Nodup :=
  (List.nodup_range.filter _).map fun _ _ => Nat.add_left_cancel

/-- No cell of a sprite comes twice. -/
theorem nodup_cells (s : Sprite) : s.cells.Nodup := by
  unfold cells
  rw [List.nodup_flatMap]
  constructor
  · rintro ⟨b, k⟩ -
    exact (nodup_litColumns _ _).map fun _ _ he => congrArg Prod.fst he
  · have hp : (s.bytes.zipIdx.map Prod.snd).Pairwise (· ≠ ·) := by
      rw [List.zipIdx_map_snd]
      exact List.nodup_range'
    refine (List.pairwise_map.mp hp).imp ?_
    rintro ⟨b, k⟩ ⟨b', k'⟩ hk ⟨i, j⟩ hc hc'
    -- a cell tells the number of the byte that it comes from
    simp only [List.mem_map, mem_litColumns, Prod.mk.injEq] at hc hc'
    obtain ⟨_, ⟨q, hq, -, rfl⟩, rfl, rfl⟩ := hc
    obtain ⟨_, ⟨q', hq', -, rfl⟩, he, hd⟩ := hc'
    have hm : k % s.rowBytes = k' % s.rowBytes := by omega
    apply hk
    rw [← Nat.div_add_mod k s.rowBytes, ← Nat.div_add_mod k' s.rowBytes, hm, hd]

theorem lt_of_bit (h : s.bit i j = true) :
    i < s.rowBytes * 8 ∧ j * s.rowBytes < s.bytes.length := by
  obtain ⟨hi, b, hb, -⟩ := bit_eq_true_iff.mp h
  have hl := (List.getElem?_eq_some_iff.mp hb).1
  exact ⟨hi, Nat.lt_of_le_of_lt (Nat.le_add_right _ _) hl⟩

/-- A sprite is no wider and no higher than a surface of a size. -/
structure Fits (s : Sprite) (extended : Bool) : Prop where
  rowBytes_pos : 0 < s.rowBytes
  width_le : s.rowBytes * 8 ≤ Surface.columns extended
  height_le : s.bytes.length ≤ s.rowBytes * Surface.lines extended

/-- A cell of a sprite that fits is in the range of a surface. -/
theorem Fits.lt_of_bit {extended : Bool} (h : s.Fits extended) (hb : s.bit i j = true) :
    i < Surface.columns extended ∧ j < Surface.lines extended := by
  obtain ⟨hi, hj⟩ := Sprite.lt_of_bit hb
  have hlines : j * s.rowBytes < Surface.lines extended * s.rowBytes := by
    rw [Nat.mul_comm (Surface.lines extended)]
    exact Nat.lt_of_lt_of_le hj h.height_le
  exact ⟨Nat.lt_of_lt_of_le hi h.width_le, Nat.lt_of_mul_lt_mul_right hlines⟩

end Sprite

/-! ## Where cells land -/

/-- Of numbers that wrap, those less than one turn apart stay apart. -/
theorem add_mod_inj {w c i i' : Nat} (hi : i < w) (hi' : i' < w)
    (h : (c + i) % w = (c + i') % w) : i = i' := by
  have hm : i % w = i' % w := Nat.ModEq.add_left_cancel' c h
  rwa [Nat.mod_eq_of_lt hi, Nat.mod_eq_of_lt hi'] at hm

namespace Surface

variable {s : Surface} {x y a b : Nat} {cells : List (Nat × Nat)} {hit : Bool}

/-- The place that a cell comes to lie on, wrapped in both directions. -/
def landing (s : Surface) (x y : Nat) (cell : Nat × Nat) : Nat × Nat :=
  ((x + cell.1) % s.width, (y + cell.2) % s.height)

theorem landing_set (s : Surface) (x y a b : Nat) (on : Bool) :
    (s.set a b on).landing x y = s.landing x y := by
  funext cell
  simp only [landing, width, height, extended_set]

theorem covers_landing (s : Surface) (x y : Nat) (cell : Nat × Nat) :
    s.Covers (s.landing x y cell).1 (s.landing x y cell).2 :=
  ⟨Nat.mod_lt _ s.width_pos, Nat.mod_lt _ s.height_pos⟩

/-- No two cells of a sprite that fits come to lie on one place. -/
theorem nodup_landings {sprite : Sprite} (h : sprite.Fits s.extended) :
    (sprite.cells.map (s.landing x y)).Nodup := by
  refine List.Nodup.map_on ?_ sprite.nodup_cells
  rintro ⟨i, j⟩ hc ⟨i', j'⟩ hc' he
  obtain ⟨hi, hj⟩ := h.lt_of_bit ((Sprite.mem_cells h.rowBytes_pos).mp hc)
  obtain ⟨hi', hj'⟩ := h.lt_of_bit ((Sprite.mem_cells h.rowBytes_pos).mp hc')
  obtain ⟨ha, hb⟩ := Prod.mk.inj he
  rw [add_mod_inj hi hi' ha, add_mod_inj hj hj' hb]

/-! ## Turning over all at once -/

theorem turnCells_cons (x y : Nat) (cell : Nat × Nat) (cells : List (Nat × Nat)) (s : Surface)
    (hit : Bool) :
    turnCells x y (cell :: cells) s hit =
      let place := s.landing x y cell
      let lit := s.get place.1 place.2
      turnCells x y cells (s.set place.1 place.2 (!lit)) (hit || lit) := rfl

/-- Where cells come to lie on places of their own, the order in which they are turned
over does not show: those places are turned over and no others. -/
theorem get_turnCells (hs : s.Full) (hn : (cells.map (s.landing x y)).Nodup) (a b : Nat) :
    (turnCells x y cells s hit).1.get a b =
      (s.get a b ^^ decide ((a, b) ∈ cells.map (s.landing x y))) := by
  induction cells generalizing s hit with
  | nil => simp [turnCells]
  | cons cell cells ih =>
      obtain ⟨hnot, hn⟩ := List.nodup_cons.mp hn
      have hc := s.covers_landing x y cell
      rw [turnCells_cons, ih (full_set hs _ _ _) (by rwa [landing_set]), get_set hs hc,
        landing_set, List.map_cons]
      generalize s.landing x y cell = place at hnot hc ⊢
      obtain ⟨px, py⟩ := place
      by_cases he : a = px ∧ b = py
      · obtain ⟨rfl, rfl⟩ := he
        simp [hnot]
      · simp [he]

/-- Whether a cell finds its place lit does not depend on what the others have turned
over. -/
theorem collides_turnCells (hs : s.Full) (hn : (cells.map (s.landing x y)).Nodup) :
    (turnCells x y cells s hit).2 = true ↔
      hit = true ∨ ∃ a b, (a, b) ∈ cells.map (s.landing x y) ∧ s.get a b = true := by
  induction cells generalizing s hit with
  | nil => simp [turnCells]
  | cons cell cells ih =>
      obtain ⟨hnot, hn⟩ := List.nodup_cons.mp hn
      have hc := s.covers_landing x y cell
      rw [turnCells_cons, ih (full_set hs _ _ _) (by rwa [landing_set]), landing_set,
        List.map_cons, Bool.or_eq_true, or_assoc]
      generalize s.landing x y cell = place at hnot hc ⊢
      obtain ⟨px, py⟩ := place
      refine or_congr_right ?_
      constructor
      · rintro (h | ⟨a, b, hm, h⟩)
        · exact ⟨px, py, List.mem_cons_self, h⟩
        · rw [get_set hs hc, if_neg] at h
          · exact ⟨a, b, List.mem_cons_of_mem _ hm, h⟩
          · rintro ⟨rfl, rfl⟩
            exact hnot hm
      · rintro ⟨a, b, hm, h⟩
        rcases List.mem_cons.mp hm with he | hrest
        · cases he
          exact .inl h
        · refine .inr ⟨a, b, hrest, ?_⟩
          rwa [get_set hs hc, if_neg]
          rintro ⟨rfl, rfl⟩
          exact hnot hrest

end Surface

/-! ## Stamps -/

/-- A sprite at a place. -/
structure Stamp where
  /-- Its leftmost column. -/
  column : Nat
  /-- Its uppermost row. -/
  row : Nat
  /-- The sprite. -/
  sprite : Sprite
deriving DecidableEq

namespace Stamp

/-- A set bit of the sprite comes to lie on a place of a surface of a size. -/
def Marks (p : Stamp) (extended : Bool) (a b : Nat) : Prop :=
  ∃ i j, p.sprite.bit i j = true ∧ (p.column + i) % Surface.columns extended = a ∧
    (p.row + j) % Surface.lines extended = b

/-- Only so many columns and rows have to be looked at. -/
theorem marks_iff {p : Stamp} {extended : Bool} {a b : Nat} :
    p.Marks extended a b ↔
      ∃ i, i < p.sprite.rowBytes * 8 ∧ ∃ j, j < p.sprite.bytes.length ∧
        p.sprite.bit i j = true ∧ (p.column + i) % Surface.columns extended = a ∧
          (p.row + j) % Surface.lines extended = b := by
  constructor
  · rintro ⟨i, j, hb, hp⟩
    obtain ⟨hi, hj⟩ := Sprite.lt_of_bit hb
    have hpos : 0 < p.sprite.rowBytes := by omega
    exact ⟨i, hi, j, Nat.lt_of_le_of_lt (Nat.le_mul_of_pos_right j hpos) hj, hb, hp⟩
  · rintro ⟨i, -, j, -, hb, hp⟩
    exact ⟨i, j, hb, hp⟩

instance (p : Stamp) (extended : Bool) (a b : Nat) : Decidable (p.Marks extended a b) :=
  decidable_of_iff _ marks_iff.symm

/-- A stamp wraps in both directions. -/
example : (⟨63, 31, ⟨1, [0x80, 0x40]⟩⟩ : Stamp).Marks false 0 0 := by decide

end Stamp

namespace Surface

variable {s : Surface} {p : Stamp} {ps ps' : List Stamp} {a b : Nat}

/-- Puts a stamp on, and says whether it collides. -/
def stamp (s : Surface) (p : Stamp) : Surface × Bool := s.blit p.column p.row p.sprite

theorem extended_stamp (s : Surface) (p : Stamp) : (s.stamp p).1.extended = s.extended :=
  extended_blit s _ _ _

theorem full_stamp (hs : s.Full) (p : Stamp) : (s.stamp p).1.Full := full_blit hs _ _ _

theorem mem_landings (h : p.sprite.Fits s.extended) :
    (a, b) ∈ p.sprite.cells.map (s.landing p.column p.row) ↔ p.Marks s.extended a b := by
  simp only [List.mem_map, Prod.exists, Sprite.mem_cells h.rowBytes_pos, landing, Prod.mk.injEq]
  rfl

/-- A stamp turns over the pixels that it marks. -/
theorem get_stamp (hs : s.Full) (h : p.sprite.Fits s.extended) (a b : Nat) :
    (s.stamp p).1.get a b = (s.get a b ^^ decide (p.Marks s.extended a b)) := by
  rw [stamp, blit, get_turnCells hs (nodup_landings h), decide_eq_decide.mpr (mem_landings h)]

/-- A stamp collides if it marks a pixel that was lit before. -/
theorem collides_stamp (hs : s.Full) (h : p.sprite.Fits s.extended) :
    (s.stamp p).2 = true ↔ ∃ a b, p.Marks s.extended a b ∧ s.get a b = true := by
  simp [stamp, blit, collides_turnCells hs (nodup_landings h), mem_landings h]

/-! ## Stamps one after the other -/

/-- Puts stamps on, one after the other. -/
def stamps (s : Surface) (ps : List Stamp) : Surface := ps.foldl (fun s p => (s.stamp p).1) s

theorem stamps_append_singleton (s : Surface) (ps : List Stamp) (p : Stamp) :
    s.stamps (ps ++ [p]) = ((s.stamps ps).stamp p).1 := List.foldl_append

theorem extended_stamps (ps : List Stamp) : ∀ s : Surface, (s.stamps ps).extended = s.extended := by
  induction ps with
  | nil => exact fun _ => rfl
  | cons p ps ih => exact fun s => (ih _).trans (extended_stamp s p)

theorem full_stamps (ps : List Stamp) : ∀ {s : Surface}, s.Full → (s.stamps ps).Full := by
  induction ps with
  | nil => exact id
  | cons p ps ih => exact fun hs => ih (full_stamp hs p)

theorem odd_succ (n : Nat) : decide ((n + 1) % 2 = 1) = !decide (n % 2 = 1) := by
  rw [← decide_not, decide_eq_decide]
  omega

/-- Behind stamps a pixel is turned over if an odd number of them marks it. -/
theorem get_stamps (hs : s.Full) (h : ∀ p ∈ ps, p.sprite.Fits s.extended) (a b : Nat) :
    (s.stamps ps).get a b =
      (s.get a b ^^ decide (ps.countP (fun p => p.Marks s.extended a b) % 2 = 1)) := by
  induction ps generalizing s with
  | nil => simp [stamps]
  | cons p ps ih =>
      have hp := h p List.mem_cons_self
      have he := extended_stamp s p
      have hps (q : Stamp) (hq : q ∈ ps) : q.sprite.Fits (s.stamp p).1.extended :=
        he.symm ▸ h q (List.mem_cons_of_mem _ hq)
      calc (s.stamps (p :: ps)).get a b
        _ = ((s.stamp p).1.stamps ps).get a b := rfl
        _ = (s.get a b ^^ decide (p.Marks s.extended a b) ^^
              decide (ps.countP (fun p => p.Marks s.extended a b) % 2 = 1)) := by
            rw [ih (full_stamp hs p) hps, get_stamp hs hp, he]
        _ = _ := by
            by_cases hm : p.Marks s.extended a b
            · simp [hm, odd_succ]
            · simp [hm]

/-- The order of stamps does not show. -/
theorem stamps_perm (hs : s.Full) (h : ∀ p ∈ ps, p.sprite.Fits s.extended) (hp : ps.Perm ps') :
    s.stamps ps = s.stamps ps' := by
  have h' (p : Stamp) (hm : p ∈ ps') : p.sprite.Fits s.extended := h p (hp.mem_iff.mpr hm)
  refine ext_get (full_stamps ps hs) (full_stamps ps' hs) ?_ fun a b _ => ?_
  · rw [extended_stamps, extended_stamps]
  · rw [get_stamps hs h, get_stamps hs h', hp.countP_eq]

/-- A stamp that is put on twice is gone. -/
theorem stamp_stamp (hs : s.Full) (h : p.sprite.Fits s.extended) :
    ((s.stamp p).1.stamp p).1 = s := by
  have he := extended_stamp s p
  refine ext_get (full_stamp (full_stamp hs p) p) hs ?_ fun a b _ => ?_
  · rw [extended_stamp, he]
  · rw [get_stamp (full_stamp hs p) (he.symm ▸ h), get_stamp hs h, he, Bool.xor_assoc,
      Bool.xor_self, Bool.xor_false]

/-- A stamp that is put on a second time collides if it marked a pixel that was not lit
before the first time. -/
theorem collides_stamp_stamp (hs : s.Full) (h : p.sprite.Fits s.extended) :
    ((s.stamp p).1.stamp p).2 = true ↔ ∃ a b, p.Marks s.extended a b ∧ s.get a b = false := by
  have he := extended_stamp s p
  rw [collides_stamp (full_stamp hs p) (he.symm ▸ h), he]
  refine exists_congr fun a => exists_congr fun b => and_congr_right fun hm => ?_
  simp [get_stamp hs h, hm]

end Surface

end SuperChip
