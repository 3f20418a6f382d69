import SuperChip.Surface.Guarded
import SuperChip.Surface.Lemmas

/-!
# Guarded surfaces have results

On a full surface no guard fails.  A pixel that is on the surface is kept, the pixels
fall into rows of one length, what moves down or sideways is as much as stays, and the
numbers in between are small.  So every guarded change has a result, the one of its
counterpart (`change_eq`), and so has looking at a pixel (`get_eq`) and at the rows
(`pieces_eq_rows`).
-/

namespace SuperChip

namespace Guard

/-! ## Copies and pieces -/

theorem copy_of_le {α : Type} {row cells : Array α} {first behind : Nat} (h : first ≤ behind)
    (hr : behind ≤ row.size) (hc : cells.size = behind - first) :
    copy row first behind cells =
      some (row.extract 0 first ++ cells ++ row.extract behind row.size) :=
  if_pos ⟨h, hr, hc⟩

theorem cut_append {α : Type} {n k : Nat} {row cells : List α} (hn : 0 < n)
    (h : row.length = n) : cut n (k + 1) (row ++ cells) = row :: cut n k cells := by
  cases row with
  | nil => exact absurd h (Nat.ne_of_lt hn)
  | cons a row =>
      show (a :: row ++ cells).take n :: cut n k ((a :: row ++ cells).drop n) = _
      rw [List.take_left' h, List.drop_left' h]

/-- Rows of one length that are joined are cut into the same rows again. -/
theorem cut_flatten {α : Type} {n k : Nat} {rows : List (List α)} (hn : 0 < n)
    (hl : ∀ row ∈ rows, row.length = n) (hk : rows.flatten.length ≤ k) :
    cut n k rows.flatten = rows := by
  induction rows generalizing k with
  | nil => cases k <;> rfl
  | cons row rows ih =>
      have hrow : row.length = n := hl row List.mem_cons_self
      have hrows (r : List α) (hr : r ∈ rows) : r.length = n := hl r (List.mem_cons_of_mem _ hr)
      rw [List.flatten_cons, List.length_append, hrow] at hk
      cases k with
      | zero => omega
      | succ k => rw [List.flatten_cons, cut_append hn hrow, ih hrows (by omega)]

end Guard

namespace Surface

/-! ## Sizes -/

/-- No surface has more pixels than the large one. -/
theorem area_le (s : Surface) : s.width * s.height ≤ 8192 := by
  unfold width height columns lines
  cases s.extended <;> decide

theorem index?_lt {s : Surface} (hs : s.Full) {x y i : Nat} (h : s.index? x y = some i) :
    i < s.pixels.size := by
  unfold index? at h
  split at h
  next hc =>
    cases h
    exact hs ▸ index_lt hc
  next => cases h

theorem length_of_mem_rows {s : Surface} (hs : s.Full) {r : List Bool} (h : r ∈ s.rows) :
    r.length = s.width := by
  obtain ⟨y, hy, rfl⟩ := List.mem_map.mp h
  exact length_row hs (List.mem_range.mp hy)

/-- The rows one after the other are all pixels. -/
theorem flatten_rows {s : Surface} (hs : s.Full) : s.rows.flatten = s.pixels.toList := by
  have hl (row : List Bool) (h : row.length = s.width) : (id row).length = s.width := h
  have hid : s.mapRows id = s := by
    refine ext_get (full_mapRows hs hl) hs rfl fun x y hc => ?_
    rw [get_mapRows hs hl hc, id, getElem?_row hs hc]
    rfl
  have hp := congrArg (·.pixels.toList) hid
  rw [← hp]
  show s.rows.flatten = s.rows.flatMap id
  rw [List.flatMap_id]

namespace Guarded

variable {s : Surface}

/-! ## Pixels -/

theorem index_eq (s : Surface) (x y : Nat) : index s x y = some (s.index? x y) := by
  unfold index index?
  split
  next hc =>
    have hi := index_lt hc
    have ha := s.area_le
    have hrow : Guard.held64 (y * s.width) = some (y * s.width) :=
      Guard.held64_of_lt (by omega)
    have hplace : Guard.held64 (y * s.width + x) = some (y * s.width + x) :=
      Guard.held64_of_lt (by omega)
    simp only [hrow, hplace, bind, Option.bind]
    rfl
  next => rfl

theorem get_eq (hs : s.Full) (x y : Nat) : get s x y = some (s.get x y) := by
  unfold get Surface.get
  rw [index_eq]
  cases h : s.index? x y with
  | none => rfl
  | some i =>
      have hi := index?_lt hs h
      simp only [bind, Option.bind, Guard.cell, Array.getElem?_eq_getElem hi]
      rfl

theorem set_eq (hs : s.Full) (x y : Nat) (on : Bool) : set s x y on = some (s.set x y on) := by
  unfold set Surface.set
  rw [index_eq]
  cases h : s.index? x y with
  | none => rfl
  | some i =>
      simp only [bind, Option.bind, Guard.replace_of_lt (index?_lt hs h)]
      rfl

/-! ## The whole picture -/

theorem extend_eq (s : Surface) (on : Bool) : extend on = some (s.extend on) := by
  have hsize : Guard.held64 (columns on * lines on) = some (columns on * lines on) := by
    cases on <;> rfl
  simp only [extend, hsize, bind, Option.bind]
  rfl

theorem down_eq (hs : s.Full) (n : Nat) : down s n = some (s.down n) := by
  have hm := moved_le hs n
  have ha : s.pixels.size ≤ 8192 := le_of_eq_of_le hs s.area_le
  unfold down Surface.down
  generalize min n s.height * s.width = moved at hm
  have hmoved : Guard.held64 moved = some moved := Guard.held64_of_lt (by omega)
  have hend : Guard.held64 (moved + (s.pixels.size - moved)) = some s.pixels.size := by
    rw [Nat.add_sub_cancel' hm]
    exact Guard.held64_of_lt (by omega)
  have hkept : s.pixels.size - moved ≤ s.pixels.size := Nat.sub_le _ _
  simp only [hmoved, hend, bind, Option.bind, Guard.difference_of_le hm,
    Guard.span_of_le (Nat.zero_le _) hkept]
  rw [Guard.copy_of_le hm (Nat.le_refl _) (by simp)]
  simp only
  rw [Guard.copy_of_le (Nat.zero_le _) (by simp; omega) (by simp)]
  simp only [pure]
  congr 2
  apply Array.ext_getElem?
  intro i
  simp only [Array.getElem?_append, Array.size_append, Array.size_extract, Array.getElem?_extract,
    Array.size_replicate, Array.getElem?_replicate]
  grind

/-! ## Rows -/

/-- The pixels fall into the rows. -/
theorem pieces_eq_rows (hs : s.Full) : Guard.pieces s.width s.pixels.toList = some s.rows := by
  rw [Guard.pieces, if_neg (Nat.ne_of_gt s.width_pos), ← flatten_rows hs]
  exact congrArg some
    (Guard.cut_flatten s.width_pos (fun _ hr => length_of_mem_rows hs hr) (Nat.le_refl _))

theorem mapM_eq_map {α β : Type} {g : α → Option β} {f : α → β} {l : List α}
    (h : ∀ a ∈ l, g a = some (f a)) : l.mapM g = some (l.map f) := by
  induction l with
  | nil => rfl
  | cons a l ih =>
      rw [List.mapM_cons, h a List.mem_cons_self, ih fun b hb => h b (List.mem_cons_of_mem _ hb)]
      rfl

theorem mapRows_eq_some (hs : s.Full) {g : List Bool → Option (List Bool)}
    {f : List Bool → List Bool} (h : ∀ row, row.length = s.width → g row = some (f row)) :
    mapRows s g = some (s.mapRows f) := by
  have hrows : s.rows.mapM g = some (s.rows.map f) :=
    mapM_eq_map fun row hr => h row (length_of_mem_rows hs hr)
  simp only [mapRows, pieces_eq_rows hs, hrows, bind, Option.bind]
  rfl

theorem left_eq (hs : s.Full) : left s = some s.left := by
  have hw := s.scrollStep_le_width
  refine mapRows_eq_some hs fun row hrow => ?_
  rw [Nat.min_eq_left hw, leftRow, Guard.difference_of_le (hrow ▸ hw)]
  simp only [bind, Option.bind, pure]
  rw [← List.length_drop, List.take_length]

theorem right_eq (hs : s.Full) : right s = some s.right := by
  have hw := s.scrollStep_le_width
  refine mapRows_eq_some hs fun row hrow => ?_
  rw [Nat.min_eq_left hw, rightRow, Guard.difference_of_le (hrow ▸ hw)]
  rfl

/-- Every change of a full surface makes sense. -/
theorem change_eq (hs : s.Full) (c : Change) : change s c = some (s.change c) := by
  cases c with
  | set x y on => exact set_eq hs x y on
  | clear => rfl
  | extend on => exact extend_eq s on
  | down n => exact down_eq hs n
  | left => exact left_eq hs
  | right => exact right_eq hs

end Guarded

end Surface

end SuperChip
