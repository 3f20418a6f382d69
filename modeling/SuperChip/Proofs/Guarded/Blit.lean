import SuperChip.Proofs.Guarded.Surface
import SuperChip.Proofs.Surface.Blit

/-!
# Guarded blits have results

A guarded blit goes through a sprite row by row, byte by byte and bit by bit, where a
blit goes through the cells of the sprite.  At each of the three levels what is gone
through is a part of the cells (`turnBit_eq`, `turnByte_eq`, `turnRow_eq`), and the parts
of all levels make up the cells in their order (`flatMap_cut`).
-/

namespace SuperChip

namespace Guard

/-! ## Pieces -/

theorem length_cut_le {α : Type} {n k : Nat} {cells : List α} : (cut n k cells).length ≤ k := by
  induction k generalizing cells with
  | zero => exact Nat.le_refl 0
  | succ k ih =>
      cases cells with
      | nil => exact Nat.zero_le _
      | cons a cells => exact Nat.succ_le_succ ih

theorem length_le_of_mem_cut {α : Type} {n k : Nat} {cells piece : List α}
    (h : piece ∈ cut n k cells) : piece.length ≤ n := by
  induction k generalizing cells with
  | zero => cases h
  | succ k ih =>
      cases cells with
      | nil => cases h
      | cons a cells =>
          rcases List.mem_cons.mp h with rfl | h
          · exact List.length_take_le _ _
          · exact ih h

/-- What is done with the cells of one piece, numbered from a multiple of its length. -/
theorem flatMap_zipIdx_mul {α β : Type} {n : Nat} (f : α → Nat → Nat → List β)
    {piece : List α} (r : Nat) (h : piece.length ≤ n) :
    (piece.zipIdx (n * r)).flatMap (fun (a, i) => f a (i % n) (i / n)) =
      piece.zipIdx.flatMap fun (a, j) => f a j r := by
  rw [List.zipIdx_eq_map_add, List.flatMap_map, List.flatMap_def, List.flatMap_def]
  refine congrArg List.flatten (List.map_congr_left ?_)
  rintro ⟨a, j⟩ hm
  have hj : j < n := Nat.lt_of_lt_of_le (List.snd_lt_of_mem_zipIdx hm) h
  have hn : 0 < n := Nat.zero_lt_of_lt hj
  simp only [Nat.mul_add_mod, Nat.mod_eq_of_lt hj, Nat.mul_add_div hn, Nat.div_eq_of_lt hj,
    Nat.add_zero]

/-- What is done with the cells of pieces, numbered in each piece, is done with all
cells, numbered from the first one. -/
theorem flatMap_cut {α β : Type} {n k : Nat} (hn : 0 < n) (f : α → Nat → Nat → List β)
    {cells : List α} (r : Nat) (hk : cells.length ≤ k) :
    ((cut n k cells).zipIdx r).flatMap (fun (piece, i) =>
        piece.zipIdx.flatMap fun (a, j) => f a j i) =
      (cells.zipIdx (n * r)).flatMap fun (a, i) => f a (i % n) (i / n) := by
  induction k generalizing cells r with
  | zero =>
      cases cells with
      | nil => rfl
      | cons a cells => cases hk
  | succ k ih =>
      cases cells with
      | nil => rfl
      | cons a cells =>
          have hlen : ((a :: cells).drop n).length ≤ k := by
            rw [List.length_drop]
            omega
          -- only the last piece can be short, and nothing is left behind it
          have hrest : ((a :: cells).drop n).zipIdx (n * r + ((a :: cells).take n).length) =
              ((a :: cells).drop n).zipIdx (n * (r + 1)) := by
            by_cases h : n ≤ (a :: cells).length
            · rw [List.length_take, Nat.min_eq_left h, Nat.mul_succ]
            · rw [List.drop_of_length_le (Nat.le_of_not_le h)]
              rfl
          have hcut : cut n (k + 1) (a :: cells) =
              (a :: cells).take n :: cut n k ((a :: cells).drop n) := rfl
          rw [hcut, List.zipIdx_cons, List.flatMap_cons, ih (r + 1) hlen]
          conv => rhs; rw [← List.take_append_drop n (a :: cells)]
          rw [List.zipIdx_append, List.flatMap_append, hrest,
            flatMap_zipIdx_mul f r (List.length_take_le _ _)]

end Guard

namespace Surface.Guarded

variable {s : Surface} {x y row : Nat} {e : Bool}

/-! ## Cells of a bit -/

/-- The cells of one bit of a byte in a row: one if it is set, and else none. -/
def bitCells (first row : Nat) (byte : UInt8) (bit : Nat) : List (Nat × Nat) :=
  if byte.toNat.testBit (7 - bit) then [(first + bit, row)] else []

theorem flatMap_ite {α β : Type} (p : α → Bool) (f : α → β) (l : List α) :
    (l.flatMap fun a => if p a then [f a] else []) = (l.filter p).map f := by
  induction l with
  | nil => rfl
  | cons a l ih =>
      rw [List.flatMap_cons, ih, List.filter_cons]
      cases p a <;> rfl

/-- The cells of a byte in a row are those of its bits. -/
theorem flatMap_bitCells (first row : Nat) (byte : UInt8) :
    (List.range 8).flatMap (bitCells first row byte) =
      (Sprite.litColumns first byte).map fun column => (column, row) := by
  unfold bitCells Sprite.litColumns
  rw [List.map_map]
  exact flatMap_ite _ (fun bit => (first + bit, row)) _

/-! ## Cells one after the other -/

/-- Where each part of what is gone through turns over some cells, all of it turns over
all of them. -/
theorem foldlM_eq_turnCells {α : Type} {f : Surface × Bool → α → Option (Surface × Bool)}
    {cells : α → List (Nat × Nat)} {l : List α} {hit : Bool}
    (h : ∀ a ∈ l, ∀ (t : Surface) (hit : Bool), t.Full → t.extended = e →
      f (t, hit) a = some (turnCells x y (cells a) t hit))
    (hs : s.Full) (he : s.extended = e) :
    l.foldlM f (s, hit) = some (turnCells x y (l.flatMap cells) s hit) := by
  induction l generalizing s hit with
  | nil => rfl
  | cons a l ih =>
      rw [List.foldlM_cons, h a List.mem_cons_self s hit hs he, List.flatMap_cons,
        turnCells_append]
      exact ih (fun b hb => h b (List.mem_cons_of_mem _ hb)) (full_turnCells x y _ hit hs)
        ((extended_turnCells x y _ s hit).trans he)

/-! ## Bits, bytes and rows -/

theorem turnBit_eq (hs : s.Full) {first : Nat} {byte : UInt8} {bit : Nat} {hit : Bool}
    (hx : x + first < 65536) (hb : bit < 8) :
    turnBit (x + first) ((y + row) % s.height) byte s hit bit =
      some (turnCells x y (bitCells first row byte bit) s hit) := by
  have hheld : Guard.held64 (x + first + bit) = some (x + (first + bit)) := by
    rw [Nat.add_assoc]
    exact Guard.held64_of_lt (by omega)
  unfold turnBit bitCells
  simp only [bind, Option.bind, Guard.difference_of_le (Nat.le_of_lt_succ hb), hheld,
    Guard.remainder_of_pos s.width_pos, get_eq hs, set_eq hs]
  split <;> rfl

theorem turnByte_eq (hs : s.Full) {first : Nat} (byte : UInt8) (hit : Bool)
    (hx : x + first < 65536) :
    turnByte (x + first) ((y + row) % s.height) byte s hit =
      some (turnCells x y ((Sprite.litColumns first byte).map fun column => (column, row))
        s hit) := by
  rw [← flatMap_bitCells]
  refine foldlM_eq_turnCells (fun bit hb t hit' ht he => ?_) hs rfl
  have hh : s.height = t.height := congrArg lines he.symm
  rw [hh]
  exact turnBit_eq ht hx (List.mem_range.mp hb)

theorem turnRow_eq (hs : s.Full) {bytes : List UInt8} (hit : Bool) (hx : x < 256)
    (hl : bytes.length ≤ 256) :
    turnRow x ((y + row) % s.height) bytes s hit =
      some (turnCells x y (bytes.zipIdx.flatMap fun (byte, k) =>
        (Sprite.litColumns (k * 8) byte).map fun column => (column, row)) s hit) := by
  refine foldlM_eq_turnCells ?_ hs rfl
  rintro ⟨byte, k⟩ hm t hit' ht he
  have hk : k < bytes.length := List.snd_lt_of_mem_zipIdx hm
  have hplace : Guard.held64 (k * 8) = some (k * 8) :=
    Guard.held64_of_lt (by omega)
  have hcolumn : Guard.held64 (x + k * 8) = some (x + k * 8) :=
    Guard.held64_of_lt (by omega)
  have hh : s.height = t.height := congrArg lines he.symm
  simp only [bind, Option.bind, hplace, hcolumn]
  rw [hh]
  exact turnByte_eq ht byte hit' (by omega)

/-! ## Blits -/

/-- The cells of a sprite, row after row. -/
theorem cells_eq {rowBytes : Nat} (hw : 0 < rowBytes) (bytes : List UInt8) :
    (⟨rowBytes, bytes⟩ : Sprite).cells =
      (Guard.cut rowBytes bytes.length bytes).zipIdx.flatMap fun (piece, k) =>
        piece.zipIdx.flatMap fun (byte, j) =>
          (Sprite.litColumns (j * 8) byte).map fun column => (column, k) :=
  (Guard.flatMap_cut hw
    (fun byte j k => (Sprite.litColumns (j * 8) byte).map fun column => (column, k))
    0 (Nat.le_refl _)).symm

/-- The number of bytes of a row and of a sprite, and the place, are small, but nothing
else is asked of a sprite: its last row may be short. -/
theorem blit_eq (hs : s.Full) {rowBytes : Nat} {bytes : List UInt8} (hx : x < 256) (hy : y < 256)
    (hw : 0 < rowBytes) (hw' : rowBytes ≤ 256) (hl : bytes.length ≤ 256) :
    blit s x y rowBytes bytes = some (s.blit x y ⟨rowBytes, bytes⟩) := by
  rw [Surface.blit, cells_eq hw, blit, Guard.pieces, if_neg (Nat.ne_of_gt hw)]
  simp only [bind, Option.bind]
  refine foldlM_eq_turnCells ?_ hs rfl
  rintro ⟨piece, k⟩ hm t hit ht he
  have hk : k < 256 := calc
    k < (Guard.cut rowBytes bytes.length bytes).length := List.snd_lt_of_mem_zipIdx hm
    _ ≤ bytes.length := Guard.length_cut_le
    _ ≤ 256 := hl
  have hmem : piece ∈ Guard.cut rowBytes bytes.length bytes := List.fst_mem_of_mem_zipIdx hm
  have hpiece : piece.length ≤ 256 := Nat.le_trans (Guard.length_le_of_mem_cut hmem) hw'
  have hheld : Guard.held64 (y + k) = some (y + k) :=
    Guard.held64_of_lt (by omega)
  simp only [hheld, Guard.remainder_of_pos t.height_pos]
  exact turnRow_eq ht hit hx hpiece

end Surface.Guarded

end SuperChip
