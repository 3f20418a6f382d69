import SuperChip.Proofs.Surface.History

/-!
# Scrolling

A picture scrolls down by any number of rows, and left or right by four columns.  For each
of the three there is one condition under which a place is lit behind the scroll
(`get_down_iff`, `get_left_iff`, `get_right_iff`), also where the place is off the surface.

`Scrolling` collects how scrolls go together.  Scrolling down twice is scrolling down once by
the sum, and from the height on it clears the surface.  It commutes with the scrolls to the
sides.  Scrolls to one side add up until nothing is left.  A scroll to one side and back loses
the four columns that were over the edge.  All of it holds of a surface with any history and
of either size (`scrolling_after`).
-/

namespace SuperChip.Surface

variable {s t : Surface}

/-! ## Lit places -/

/-- Nothing is lit off the surface. -/
theorem covers_of_get {x y : Nat} (h : s.get x y = true) : s.Covers x y := by
  by_cases hc : s.Covers x y
  · exact hc
  · rw [get_of_not_covers hc] at h
    cases h

/-- Full surfaces of one size on which the same places are lit are the same. -/
theorem ext_lit (hs : s.Full) (ht : t.Full) (he : s.extended = t.extended)
    (h : ∀ x y, s.get x y = true ↔ t.get x y = true) : s = t :=
  ext_get hs ht he fun x y _ => Bool.eq_iff_iff.mpr (h x y)

section Scrolls

variable (hs : s.Full)
include hs

theorem get_down_iff {n x y : Nat} :
    (s.down n).get x y = true ↔ y < s.height ∧ n ≤ y ∧ s.get x (y - n) = true := by
  constructor
  · intro h
    have hc : s.Covers x y := covers_of_get (s := s.down n) h
    rw [get_down hs n hc, Bool.ite_eq_true_distrib] at h
    split at h
    next hn => exact ⟨hc.2, hn, h⟩
    next => cases h
  · rintro ⟨hy, hn, h⟩
    rw [get_down hs n ⟨(covers_of_get h).1, hy⟩, if_pos hn]
    exact h

theorem get_left_iff {x y : Nat} :
    s.left.get x y = true ↔ s.get (x + 4) y = true := by
  constructor
  · intro h
    have hc : s.Covers x y := covers_of_get (s := s.left) h
    rwa [get_left hs hc] at h
  · intro h
    obtain ⟨hx, hy⟩ := covers_of_get h
    rw [get_left hs ⟨by omega, hy⟩]
    exact h

theorem get_right_iff {x y : Nat} :
    s.right.get x y = true ↔ x < s.width ∧ 4 ≤ x ∧ s.get (x - 4) y = true := by
  constructor
  · intro h
    have hc : s.Covers x y := covers_of_get (s := s.right) h
    rw [get_right hs hc, Bool.ite_eq_true_distrib] at h
    split at h
    next hx => exact ⟨hc.1, hx, h⟩
    next => cases h
  · rintro ⟨hw, hx, h⟩
    rw [get_right hs ⟨hw, (covers_of_get h).2⟩, scrollStep, if_pos hx]
    exact h

/-! ## Scrolling down -/

theorem down_down (a b : Nat) : (s.down a).down b = s.down (a + b) := by
  refine ext_lit (full_down (full_down hs a) b) (full_down hs (a + b)) rfl fun x y => ?_
  have hh : (s.down a).height = s.height := rfl
  rw [get_down_iff (full_down hs a), get_down_iff hs, get_down_iff hs, hh, Nat.sub_sub,
    Nat.add_comm b a]
  constructor
  · rintro ⟨hy, hb, -, ha, h⟩
    exact ⟨hy, by omega, h⟩
  · rintro ⟨hy, hn, h⟩
    exact ⟨hy, by omega, by omega, by omega, h⟩

/-- A picture that moves down by the height or more is gone. -/
theorem down_of_height_le {n : Nat} (hn : s.height ≤ n) : s.down n = s.clear := by
  refine ext_lit (full_down hs n) (full_clear hs) rfl fun x y => ?_
  rw [get_down_iff hs, get_clear]
  constructor
  · rintro ⟨hy, hny, -⟩
    omega
  · intro h
    cases h

theorem left_down (n : Nat) : (s.down n).left = s.left.down n := by
  refine ext_lit (full_left (full_down hs n)) (full_down (full_left hs) n) rfl fun x y => ?_
  rw [get_left_iff (full_down hs n), get_down_iff hs, get_down_iff (full_left hs),
    get_left_iff hs]
  rfl

theorem right_down (n : Nat) : (s.down n).right = s.right.down n := by
  refine ext_lit (full_right (full_down hs n)) (full_down (full_right hs) n) rfl fun x y => ?_
  have hw : (s.down n).width = s.width := rfl
  have hh : s.right.height = s.height := rfl
  rw [get_right_iff (full_down hs n), get_down_iff hs, get_down_iff (full_right hs),
    get_right_iff hs, hw, hh]
  constructor
  · rintro ⟨hx, hx4, hy, hn, h⟩
    exact ⟨hy, hn, hx, hx4, h⟩
  · rintro ⟨hy, hn, hx, hx4, h⟩
    exact ⟨hx, hx4, hy, hn, h⟩

/-! ## To one side and back -/

/-- A scroll to the right and back to the left loses the last four columns. -/
theorem get_left_right (x y : Nat) :
    s.right.left.get x y = if x + 4 < s.width then s.get x y else false := by
  rw [Bool.eq_iff_iff, get_left_iff (full_right hs), get_right_iff hs]
  split
  next hx => simp [hx]
  next hx => simp [hx]

/-- A scroll to the left and back to the right loses the first four columns. -/
theorem get_right_left (x y : Nat) :
    s.left.right.get x y = if 4 ≤ x then s.get x y else false := by
  have hw : s.left.width = s.width := rfl
  rw [Bool.eq_iff_iff, get_right_iff (full_left hs), get_left_iff hs, hw]
  split
  next hx =>
    rw [Nat.sub_add_cancel hx]
    exact ⟨fun h => h.2.2, fun h => ⟨(covers_of_get h).1, hx, h⟩⟩
  next hx => simp [hx]

/-! ## Scrolls one after the other -/

theorem full_after (cs : List Change) : (s.after cs).Full := by
  induction cs generalizing s with
  | nil => exact hs
  | cons c cs ih => exact ih (full_change hs c)

/-- Scrolls to the left add up. -/
theorem get_lefts_iff (k : Nat) {x y : Nat} :
    (s.after (List.replicate k .left)).get x y = true ↔ s.get (x + 4 * k) y = true := by
  induction k generalizing s with
  | zero => rfl
  | succ k ih =>
      have hadd : x + 4 * (k + 1) = x + 4 * k + 4 := by omega
      rw [hadd, ← get_left_iff hs]
      exact ih (full_left hs)

/-- Scrolls to the right add up. -/
theorem get_rights_iff (k : Nat) {x y : Nat} :
    (s.after (List.replicate k .right)).get x y = true ↔
      x < s.width ∧ 4 * k ≤ x ∧ s.get (x - 4 * k) y = true := by
  induction k generalizing s with
  | zero => exact ⟨fun h => ⟨(covers_of_get h).1, by omega, h⟩, fun h => h.2.2⟩
  | succ k ih =>
      have hw : s.right.width = s.width := rfl
      have hsub : x - 4 * (k + 1) = x - 4 * k - 4 := by omega
      refine (ih (full_right hs)).trans ?_
      rw [get_right_iff hs, hw, hsub]
      constructor
      · rintro ⟨hx, hk, -, h4, h⟩
        exact ⟨hx, by omega, h⟩
      · rintro ⟨hx, hk, h⟩
        exact ⟨hx, by omega, by omega, by omega, h⟩

end Scrolls

/-- A change that scrolls. -/
def Change.IsScroll : Change → Prop
  | .down _ | .left | .right => True
  | _ => False

/-- Scrolling keeps the size. -/
theorem extended_after {cs : List Change} (h : ∀ c ∈ cs, c.IsScroll) :
    (s.after cs).extended = s.extended := by
  induction cs generalizing s with
  | nil => rfl
  | cons c cs ih =>
      have hc : (s.change c).extended = s.extended := by
        have hscroll := h c List.mem_cons_self
        cases c with
        | down | left | right => rfl
        | _ => cases hscroll
      rw [← hc]
      exact ih fun c' hc' => h c' (List.mem_cons_of_mem _ hc')

theorem width_mul_four (s : Surface) : 4 * (s.width / 4) = s.width := by
  unfold width columns
  split <;> rfl

/-- Scrolls to one side that keep nothing on the surface clear it. -/
theorem after_replicate_eq_clear (hs : s.Full) {k : Nat} {c : Change} (hc : c.IsScroll)
    (h : ∀ x y, ¬(s.after (List.replicate k c)).get x y = true) :
    s.after (List.replicate k c) = s.clear := by
  have he : (s.after (List.replicate k c)).extended = s.extended :=
    extended_after fun c' hc' => (List.eq_of_mem_replicate hc') ▸ hc
  refine ext_lit (full_after hs _) (full_clear hs) he fun x y => ?_
  rw [get_clear]
  exact ⟨fun hl => absurd hl (h x y), fun hl => by cases hl⟩

/-! ## The laws -/

/-- How scrolls of a surface go together. -/
structure Scrolling (s : Surface) : Prop where
  /-- Scrolling keeps the size. -/
  size : ∀ cs : List Change, (∀ c ∈ cs, c.IsScroll) → (s.after cs).extended = s.extended
  /-- Numbers of rows add up. -/
  down_down : ∀ a b, (s.down a).down b = s.down (a + b)
  /-- The height is enough to clear the surface. -/
  down_all : ∀ n, s.height ≤ n → s.down n = s.clear
  /-- Down and left commute. -/
  down_left : ∀ n, (s.down n).left = s.left.down n
  /-- Down and right commute. -/
  down_right : ∀ n, (s.down n).right = s.right.down n
  /-- Scrolls to the left bring what was four columns further right for each of them. -/
  lefts : ∀ k x y, (s.after (List.replicate k .left)).get x y = true ↔
    x + 4 * k < s.width ∧ s.get (x + 4 * k) y = true
  /-- Scrolls to the right bring what was four columns further left for each of them. -/
  rights : ∀ k x y, s.Covers x y → ((s.after (List.replicate k .right)).get x y = true ↔
    4 * k ≤ x ∧ s.get (x - 4 * k) y = true)
  /-- A quarter of the width is enough to clear the surface to the left. -/
  lefts_all : s.after (List.replicate (s.width / 4) .left) = s.clear
  /-- A quarter of the width is enough to clear the surface to the right. -/
  rights_all : s.after (List.replicate (s.width / 4) .right) = s.clear
  /-- Right and back restores all but the last four columns. -/
  right_left : ∀ x y, s.right.left.get x y = if x + 4 < s.width then s.get x y else false
  /-- Left and back restores all but the first four columns. -/
  left_right : ∀ x y, s.left.right.get x y = if 4 ≤ x then s.get x y else false

/-- A surface scrolls by the laws whatever its history and its size. -/
theorem scrolling_after (cs : List Change) : ((blank false).after cs).Scrolling := by
  have hs : ((blank false).after cs).Full := full_after (full_blank false) cs
  generalize (blank false).after cs = s at hs
  exact {
    size := fun _ => extended_after
    down_down := Surface.down_down hs
    down_all := fun _ => down_of_height_le hs
    down_left := left_down hs
    down_right := right_down hs
    lefts := fun k x y => by
      rw [get_lefts_iff hs]
      exact ⟨fun h => ⟨(covers_of_get h).1, h⟩, And.right⟩
    rights := fun k x y hc => by
      rw [get_rights_iff hs]
      exact ⟨And.right, fun h => ⟨hc.1, h⟩⟩
    lefts_all := after_replicate_eq_clear hs trivial fun x y h => by
      rw [get_lefts_iff hs, width_mul_four] at h
      have hc := (covers_of_get h).1
      omega
    rights_all := after_replicate_eq_clear hs trivial fun x y h => by
      rw [get_rights_iff hs, width_mul_four] at h
      omega
    right_left := get_left_right hs
    left_right := get_right_left hs }

/-- A pixel of the large surface is found again behind two scrolls to the right, and all is
gone behind one scroll by the height. -/
theorem scrolling_after_pixel :
    let s := (blank false).after [.extend true, .set 9 5 true]
    (s.height ≤ 64 ∧ s.down 64 = s.clear) ∧
      s.Covers 17 5 ∧ (s.after (List.replicate 2 .right)).get 17 5 = true := by
  intro s
  have hs : s.Scrolling := scrolling_after [.extend true, .set 9 5 true]
  have hheight : s.height ≤ 64 := Nat.le_refl 64
  have hcovers : s.Covers 17 5 := by decide
  have hlit : s.get 9 5 = true := by decide +kernel
  exact ⟨⟨hheight, hs.down_all 64 hheight⟩, hcovers,
    (hs.rights 2 17 5 hcovers).mpr ⟨by decide, hlit⟩⟩

end SuperChip.Surface
