import SuperChip.Surface

/-!
# What changes do to a surface

A full surface is seen through `Surface.get`: two of one size that show the same
everywhere are the same (`ext_get`).  Every change keeps a surface full
(`full_change`), and for each there is one equation that says what is seen behind
it: `get_set`, `get_clear`, `get_blank`, `get_down`, `get_left`, `get_right`.
-/

namespace SuperChip.Surface

/-! ## Sizes -/

theorem width_pos (s : Surface) : 0 < s.width := by
  unfold width columns
  split <;> decide

theorem height_pos (s : Surface) : 0 < s.height := by
  unfold height lines
  split <;> decide

/-! ## Looking -/

/-- On the surface a pixel is read at its place in the rows laid end to end. -/
theorem get_of_covers {s : Surface} {x y : Nat} (h : s.Covers x y) :
    s.get x y = s.pixels[y * s.width + x]?.getD false := by
  simp [get, index?, h]

/-- Off the surface all is dark. -/
theorem get_of_not_covers {s : Surface} {x y : Nat} (h : ¬s.Covers x y) : s.get x y = false := by
  simp [get, index?, h]

/-- A surface with other pixels still has the same places. -/
theorem get_mk_of_covers {s : Surface} {x y : Nat} (h : s.Covers x y) (p : Array Bool) :
    (⟨s.extended, p⟩ : Surface).get x y = p[y * s.width + x]?.getD false :=
  get_of_covers (s := ⟨s.extended, p⟩) h

theorem get_mk_of_not_covers {s : Surface} {x y : Nat} (h : ¬s.Covers x y) (p : Array Bool) :
    (⟨s.extended, p⟩ : Surface).get x y = false :=
  get_of_not_covers (s := ⟨s.extended, p⟩) h

/-- The place of a pixel is one of the places that there are. -/
theorem index_lt {s : Surface} {x y : Nat} (h : s.Covers x y) :
    y * s.width + x < s.width * s.height := by
  obtain ⟨hx, hy⟩ := h
  have hr := Nat.mul_le_mul_left s.width (Nat.succ_le_of_lt hy)
  rw [Nat.mul_succ, Nat.mul_comm s.width y] at hr
  omega

/-- Rows laid end to end do not overlap. -/
theorem index_inj {w x x' y y' : Nat} (hx : x < w) (hx' : x' < w)
    (h : y * w + x = y' * w + x') : x = x' ∧ y = y' := by
  have hw : 0 < w := by omega
  have hy : y = y' := by
    have hd := congrArg (· / w) h
    simpa [Nat.mul_comm, Nat.mul_add_div hw, Nat.div_eq_of_lt hx, Nat.div_eq_of_lt hx'] using hd
  subst hy
  exact ⟨by omega, rfl⟩

/-! ## One pixel -/

/-- On the surface a pixel is put at its place. -/
theorem set_of_covers {s : Surface} {x y : Nat} (h : s.Covers x y) (on : Bool) :
    s.set x y on = ⟨s.extended, s.pixels.setIfInBounds (y * s.width + x) on⟩ := by
  simp [set, index?, h]

/-- Nothing can be put off the surface. -/
theorem set_of_not_covers {s : Surface} {x y : Nat} (h : ¬s.Covers x y) (on : Bool) :
    s.set x y on = s := by
  simp [set, index?, h]

/-- The last column of a small surface is the one with the number 63. -/
example : (blank false).set 64 0 true = blank false := rfl

@[simp] theorem extended_set (s : Surface) (x y : Nat) (on : Bool) :
    (s.set x y on).extended = s.extended := by
  unfold set
  split <;> rfl

/-- A full surface stays full when a pixel is put. -/
theorem full_set {s : Surface} (hs : s.Full) (x y : Nat) (on : Bool) : (s.set x y on).Full := by
  by_cases h : s.Covers x y
  · rw [set_of_covers h]
    exact Array.size_setIfInBounds.trans hs
  · rw [set_of_not_covers h]
    exact hs

/-- Setting a pixel of the surface changes this one only. -/
theorem get_set {s : Surface} (hs : s.Full) {x y : Nat} (h : s.Covers x y) (on : Bool)
    (x' y' : Nat) :
    (s.set x y on).get x' y' = if x' = x ∧ y' = y then on else s.get x' y' := by
  rw [set_of_covers h]
  by_cases h' : s.Covers x' y'
  · rw [get_of_covers h', get_mk_of_covers h', Array.getElem?_setIfInBounds]
    have hi : y * s.width + x < s.pixels.size := hs ▸ index_lt h
    by_cases he : x' = x ∧ y' = y
    · obtain ⟨rfl, rfl⟩ := he
      simp [hi]
    · have hne : y * s.width + x ≠ y' * s.width + x' := fun e =>
        he ⟨(index_inj h.1 h'.1 e).1.symm, (index_inj h.1 h'.1 e).2.symm⟩
      rw [if_neg hne, if_neg he]
  · have hne : ¬(x' = x ∧ y' = y) := fun e => h' (e.1 ▸ e.2 ▸ h)
    rw [if_neg hne, get_of_not_covers h', get_mk_of_not_covers h']

/-! ## The whole picture -/

/-- A new surface is dark everywhere. -/
theorem get_blank (extended : Bool) (x y : Nat) : (blank extended).get x y = false := by
  by_cases h : (blank extended).Covers x y
  · rw [get_of_covers h]
    simp only [blank, Array.getElem?_replicate]
    split <;> rfl
  · exact get_of_not_covers h

theorem full_blank (extended : Bool) : (blank extended).Full := Array.size_replicate

/-- A surface that was cleared is dark everywhere. -/
theorem get_clear (s : Surface) (x y : Nat) : s.clear.get x y = false := by
  by_cases h : s.clear.Covers x y
  · rw [get_of_covers h]
    simp only [clear, Array.getElem?_replicate]
    split <;> rfl
  · exact get_of_not_covers h

theorem full_clear {s : Surface} (hs : s.Full) : s.clear.Full := Array.size_replicate.trans hs

/-- Pixels move on by no more places than there are. -/
theorem moved_le {s : Surface} (hs : s.Full) (n : Nat) :
    min n s.height * s.width ≤ s.pixels.size := by
  rw [hs, Nat.mul_comm]
  exact Nat.mul_le_mul_left _ (Nat.min_le_right _ _)

/-- A full surface stays full when it scrolls down. -/
theorem full_down {s : Surface} (hs : s.Full) (n : Nat) : (s.down n).Full := by
  have hm := moved_le hs n
  change (s.down n).pixels.size = s.width * s.height
  rw [← hs]
  simp only [down, Array.size_append, Array.size_replicate, Array.size_extract]
  omega

/-- A picture that moved down shows in a row what was that many rows further up. -/
theorem get_down {s : Surface} (hs : s.Full) (n : Nat) {x y : Nat} (h : s.Covers x y) :
    (s.down n).get x y = if n ≤ y then s.get x (y - n) else false := by
  have hi := index_lt h
  have hm := moved_le hs n
  rw [get_of_covers (s := s.down n) h]
  change (s.down n).pixels[y * s.width + x]?.getD false = _
  simp only [down, Array.getElem?_append, Array.size_replicate, Array.getElem?_extract,
    Array.getElem?_replicate]
  by_cases hn : n ≤ y
  · have hr : n * s.width ≤ y * s.width := Nat.mul_le_mul_right _ hn
    have hmin : min n s.height = n := Nat.min_eq_left (Nat.le_trans hn (Nat.le_of_lt h.2))
    have hsub : y * s.width + x - n * s.width = (y - n) * s.width + x := by
      rw [Nat.sub_mul]
      omega
    have hc : s.Covers x (y - n) := ⟨h.1, Nat.lt_of_le_of_lt (Nat.sub_le _ _) h.2⟩
    rw [hmin, if_pos hn, get_of_covers hc, if_neg (by omega), hsub, hs]
    grind
  · have hr : (y + 1) * s.width ≤ min n s.height * s.width :=
      Nat.mul_le_mul_right _ (Nat.le_min.mpr ⟨by omega, h.2⟩)
    rw [Nat.succ_mul] at hr
    have hx := h.1
    rw [if_neg hn, if_pos (by omega), if_pos (by omega)]
    rfl

/-! ## Rows -/

/-- In rows of one width, laid end to end, each row begins where the width says. -/
theorem getElem?_flatten {α : Type} {w : Nat} : ∀ {l : List (List α)} {x y : Nat},
    (∀ row ∈ l, row.length = w) → x < w → l.flatten[y * w + x]? = l[y]?.bind (·[x]?)
  | [], _, _, _, _ => by simp
  | row :: l, x, 0, hl, hx => by
      have hr : row.length = w := hl row List.mem_cons_self
      simp [List.flatten_cons, List.getElem?_append, hr, hx]
  | row :: l, x, y + 1, hl, hx => by
      have hr : row.length = w := hl row List.mem_cons_self
      have hi : (y + 1) * w + x - w = y * w + x := by
        rw [Nat.succ_mul]
        omega
      have hge : ¬(y + 1) * w + x < w := by
        rw [Nat.succ_mul]
        omega
      rw [List.flatten_cons, List.getElem?_append, hr, if_neg hge, hi, List.getElem?_cons_succ]
      exact getElem?_flatten (fun r h => hl r (List.mem_cons_of_mem _ h)) hx

/-- A row of a full surface has its width. -/
theorem length_row {s : Surface} (hs : s.Full) {y : Nat} (hy : y < s.height) :
    (s.row y).length = s.width := by
  have hr := Nat.mul_le_mul_left s.width (Nat.succ_le_of_lt hy)
  rw [Nat.mul_comm s.width (y + 1), ← hs] at hr
  simp only [row, Array.length_toList, Array.size_extract]
  rw [Nat.min_eq_left hr, Nat.succ_mul]
  omega

/-- A row has the pixels of the surface in it. -/
theorem getElem?_row {s : Surface} (hs : s.Full) {x y : Nat} (h : s.Covers x y) :
    (s.row y)[x]? = some (s.get x y) := by
  have hi : y * s.width + x < s.pixels.size := hs ▸ index_lt h
  have hx := h.1
  have hr : y * s.width + x < (y + 1) * s.width := by
    rw [Nat.succ_mul]
    omega
  rw [get_of_covers h, row, Array.getElem?_toList, Array.getElem?_extract]
  rw [if_pos (by omega)]
  simp [hi]

/-- Changing all rows lays the changed rows end to end. -/
theorem mapRows_eq (s : Surface) (f : List Bool → List Bool) :
    s.mapRows f =
      ⟨s.extended, ((List.range s.height).map fun y => f (s.row y)).flatten.toArray⟩ := by
  simp only [mapRows, rows, List.flatMap_def, List.map_map]
  rfl

/-- A pixel of a surface with changed rows is read off its changed row. -/
theorem get_mapRows {s : Surface} (hs : s.Full) {f : List Bool → List Bool}
    (hf : ∀ r, r.length = s.width → (f r).length = s.width) {x y : Nat} (h : s.Covers x y) :
    (s.mapRows f).get x y = (f (s.row y))[x]?.getD false := by
  have hl : ∀ r ∈ (List.range s.height).map fun y => f (s.row y), r.length = s.width := by
    intro r hr
    obtain ⟨k, hk, rfl⟩ := List.mem_map.mp hr
    exact hf _ (length_row hs (List.mem_range.mp hk))
  rw [mapRows_eq, get_mk_of_covers h, List.getElem?_toArray, getElem?_flatten hl h.1,
    List.getElem?_map, List.getElem?_range h.2]
  rfl

/-- A surface stays full when its rows keep their width. -/
theorem full_mapRows {s : Surface} (hs : s.Full) {f : List Bool → List Bool}
    (hf : ∀ r, r.length = s.width → (f r).length = s.width) : (s.mapRows f).Full := by
  rw [mapRows_eq]
  change ((List.range s.height).map fun y => f (s.row y)).flatten.toArray.size
    = s.width * s.height
  rw [List.size_toArray, List.length_flatten, List.map_map]
  have : (List.range s.height).map (List.length ∘ fun y => f (s.row y))
      = List.replicate s.height s.width := by
    rw [List.eq_replicate_iff]
    refine ⟨by simp, fun n hn => ?_⟩
    obtain ⟨k, hk, rfl⟩ := List.mem_map.mp hn
    exact hf _ (length_row hs (List.mem_range.mp hk))
  rw [this, List.sum_replicate_nat, Nat.mul_comm]

/-- No surface is narrower than a step to the side. -/
theorem scrollStep_le_width (s : Surface) : scrollStep ≤ s.width := by
  unfold width columns
  split <;> decide

theorem full_left {s : Surface} (hs : s.Full) : s.left.Full := by
  apply full_mapRows hs
  intro r hr
  have := s.scrollStep_le_width
  simp only [List.length_append, List.length_drop, List.length_replicate]
  omega

theorem full_right {s : Surface} (hs : s.Full) : s.right.Full := by
  apply full_mapRows hs
  intro r hr
  have := s.scrollStep_le_width
  simp only [List.length_append, List.length_take, List.length_replicate]
  omega

/-- A picture that moved left shows in a column what was four columns further right. -/
theorem get_left {s : Surface} (hs : s.Full) {x y : Nat} (h : s.Covers x y) :
    s.left.get x y = s.get (x + scrollStep) y := by
  have hw := s.scrollStep_le_width
  have hl := length_row hs h.2
  rw [left, get_mapRows hs _ h, List.getElem?_append, List.length_drop, hl]
  · split
    · rw [List.getElem?_drop, Nat.add_comm, getElem?_row hs ⟨by omega, h.2⟩]
      rfl
    · rw [get_of_not_covers (fun c => by have := c.1; omega), List.getElem?_replicate]
      split <;> rfl
  · intro r hr
    simp only [List.length_append, List.length_drop, List.length_replicate]
    omega

/-- A picture that moved right shows in a column what was four columns further left. -/
theorem get_right {s : Surface} (hs : s.Full) {x y : Nat} (h : s.Covers x y) :
    s.right.get x y = if scrollStep ≤ x then s.get (x - scrollStep) y else false := by
  have hw := s.scrollStep_le_width
  have hx := h.1
  have hl := length_row hs h.2
  rw [right, get_mapRows hs _ h, List.getElem?_append, List.length_replicate]
  · by_cases hn : scrollStep ≤ x
    · rw [if_neg (by omega), if_pos hn, List.getElem?_take, hl, if_pos (by omega),
        getElem?_row hs ⟨by omega, h.2⟩]
      rfl
    · rw [if_pos (by omega), if_neg hn, List.getElem?_replicate, if_pos (by omega)]
      rfl
  · intro r hr
    simp only [List.length_append, List.length_take, List.length_replicate]
    omega

/-- A full surface stays full whatever is done to it. -/
theorem full_change {s : Surface} (hs : s.Full) (c : Change) : (s.change c).Full := by
  cases c with
  | set x y on => exact full_set hs x y on
  | clear => exact full_clear hs
  | extend on => exact full_blank on
  | down n => exact full_down hs n
  | left => exact full_left hs
  | right => exact full_right hs

/-- Full surfaces of one size that show the same are the same. -/
theorem ext_get {s t : Surface} (hs : s.Full) (ht : t.Full) (he : s.extended = t.extended)
    (h : ∀ x y, s.Covers x y → s.get x y = t.get x y) : s = t := by
  obtain ⟨e, p⟩ := s
  obtain ⟨e', q⟩ := t
  subst he
  congr
  have hsize : p.size = q.size := hs.trans ht.symm
  apply Array.ext hsize
  intro i hi hi'
  have hw : 0 < (⟨e, p⟩ : Surface).width := Nat.lt_of_lt_of_le (by decide) (scrollStep_le_width _)
  have hc : (⟨e, p⟩ : Surface).Covers (i % columns e) (i / columns e) := by
    refine ⟨Nat.mod_lt _ hw, Nat.div_lt_of_lt_mul ?_⟩
    exact hs ▸ hi
  have hg := h _ _ hc
  rw [get_mk_of_covers hc, get_mk_of_covers hc] at hg
  have hk : i / columns e * columns e + i % columns e = i := by
    rw [Nat.mul_comm]
    exact Nat.div_add_mod _ _
  have hw' : (⟨e, p⟩ : Surface).width = columns e := rfl
  rw [hw', hk] at hg
  simpa [hi, hi'] using hg

end SuperChip.Surface
