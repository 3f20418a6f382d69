import SuperChip.Surface.Lemmas

/-!
# The coordinate picture

A *picture* forgets how pixels are kept.  It is a size and a set of lit places,
and each change is said place by place: what is lit at a place behind the change,
in terms of what was lit before it.

Every full surface has a picture, surfaces with the same picture are the same
(`picture_inj`), and changing a surface changes its picture by the rule of the
picture (`picture_change`).
-/

namespace SuperChip

/-! ## Pictures -/

/-- A size and the places that are lit. -/
@[ext] structure Picture where
  /-- Whether it has the large size. -/
  extended : Bool
  /-- Whether a place is lit. -/
  lit : Nat → Nat → Bool

namespace Picture

/-- A place in the rectangle of a picture. -/
def Covers (p : Picture) (x y : Nat) : Prop :=
  x < Surface.columns p.extended ∧ y < Surface.lines p.extended

instance (p : Picture) (x y : Nat) : Decidable (p.Covers x y) :=
  inferInstanceAs (Decidable (_ ∧ _))

/-- The picture of a size with no place lit. -/
def blank (extended : Bool) : Picture := ⟨extended, fun _ _ => false⟩

/-- The picture behind a change. -/
def change (p : Picture) : Surface.Change → Picture
  | .set x y on =>
      ⟨p.extended, fun a b => if (a = x ∧ b = y) ∧ p.Covers x y then on else p.lit a b⟩
  | .clear => blank p.extended
  | .extend on => blank on
  | .down n =>
      ⟨p.extended, fun x y => if p.Covers x y ∧ n ≤ y then p.lit x (y - n) else false⟩
  | .left => ⟨p.extended, fun x y => if p.Covers x y then p.lit (x + 4) y else false⟩
  | .right =>
      ⟨p.extended, fun x y => if p.Covers x y ∧ 4 ≤ x then p.lit (x - 4) y else false⟩

end Picture

/-! ## The picture of a surface -/

namespace Surface

/-- The picture a surface shows. -/
def picture (s : Surface) : Picture := ⟨s.extended, s.get⟩

theorem picture_inj {s t : Surface} (hs : s.Full) (ht : t.Full) :
    s.picture = t.picture ↔ s = t := by
  constructor
  · intro h
    exact ext_get hs ht (congrArg Picture.extended h) fun x y _ =>
      congrFun (congrFun (congrArg Picture.lit h) x) y
  · rintro rfl
    rfl

/-- What a surface of a certain size shows off that size is nothing. -/
theorem get_eq_false {s t : Surface} (he : t.extended = s.extended) {x y : Nat}
    (h : ¬s.Covers x y) : t.get x y = false := by
  apply get_of_not_covers
  unfold Covers width height at *
  rwa [he]

/-- A surface changes as its picture does. -/
theorem picture_change {s : Surface} (hs : s.Full) (c : Change) :
    (s.change c).picture = s.picture.change c := by
  cases c with
  | set a b on =>
      refine Picture.ext (extended_set s a b on) (funext fun x => funext fun y => ?_)
      change (s.set a b on).get x y =
        if (x = a ∧ y = b) ∧ s.Covers a b then on else s.get x y
      by_cases h : s.Covers a b
      · simp only [get_set hs h, h, and_true]
      · simp only [set_of_not_covers h, h, and_false, if_false]
  | clear => exact Picture.ext rfl (funext fun x => funext fun y => get_clear s x y)
  | extend on => exact Picture.ext rfl (funext fun x => funext fun y => get_blank on x y)
  | down n =>
      refine Picture.ext rfl (funext fun x => funext fun y => ?_)
      change (s.down n).get x y = if s.Covers x y ∧ n ≤ y then s.get x (y - n) else false
      by_cases h : s.Covers x y
      · simp only [get_down hs n h, h, true_and]
      · simp only [h, false_and, if_false]
        exact get_eq_false rfl h
  | left =>
      refine Picture.ext rfl (funext fun x => funext fun y => ?_)
      change s.left.get x y = if s.Covers x y then s.get (x + 4) y else false
      by_cases h : s.Covers x y
      · simp only [h, if_true]
        exact get_left hs h
      · simp only [h, if_false]
        exact get_eq_false rfl h
  | right =>
      refine Picture.ext rfl (funext fun x => funext fun y => ?_)
      change s.right.get x y = if s.Covers x y ∧ 4 ≤ x then s.get (x - 4) y else false
      by_cases h : s.Covers x y
      · simp only [h, true_and]
        exact get_right hs h
      · simp only [h, false_and, if_false]
        exact get_eq_false rfl h

end Surface

end SuperChip
