import SuperChip.Surface.Picture
import SuperChip.Surface.Shared

/-!
# Surfaces through any history

A surface *shows* a picture when the picture answers all that can be asked of the
surface: which size it has, whether a pixel is lit, on the surface or off it, and what
its rows are.

A new surface shows the blank picture, and a change takes what is shown from one picture
to the next.  So after any history of changes a surface shows the picture that the same
changes make of the blank one (`Shows.after`).  Those who share the surface see the same,
whoever of them failed with it and whenever (`Shared.look_after`).

The picture behind a change is said place by place by `Picture.Lawful`.  The rules leave
out what is off the rectangle.  They may, since nothing is ever lit there
(`Picture.Framed.change`).
-/

namespace SuperChip

/-! ## Pictures -/

namespace Picture

/-- The picture behind changes, one after the other. -/
def after (p : Picture) (cs : List Surface.Change) : Picture := cs.foldl change p

/-- The rows of the rectangle from the top. -/
def rows (p : Picture) : List (List Bool) :=
  (List.range (Surface.lines p.extended)).map fun y =>
    (List.range (Surface.columns p.extended)).map fun x => p.lit x y

/-- What is lit is in the rectangle. -/
def Framed (p : Picture) : Prop := ∀ x y, p.lit x y = true → p.Covers x y

/-- What is lit behind a change, in terms of what was lit before. -/
structure Lawful (p : Picture) : Prop where
  /-- Only choosing the size changes the size. -/
  extended : ∀ c, (p.change c).extended = match c with
    | .extend on => on
    | _ => p.extended
  /-- A place in the rectangle can be set, and all other places stay. -/
  set : ∀ a b on x y, (p.change (.set a b on)).lit x y =
    if (x, y) = (a, b) ∧ p.Covers a b then on else p.lit x y
  /-- Clearing leaves nothing lit. -/
  clear : ∀ x y, (p.change .clear).lit x y = false
  /-- Choosing a size leaves nothing lit, also where the size stays. -/
  extend : ∀ on x y, (p.change (.extend on)).lit x y = false
  /-- The picture moves down by any number of rows. -/
  down : ∀ n x y, p.Covers x y →
    ((p.change (.down n)).lit x y = true ↔ n ≤ y ∧ p.lit x (y - n) = true)
  /-- The picture moves left by four columns. -/
  left : ∀ x y, p.Covers x y → ((p.change .left).lit x y = true ↔
    x + 4 < Surface.columns p.extended ∧ p.lit (x + 4) y = true)
  /-- The picture moves right by four columns. -/
  right : ∀ x y, p.Covers x y →
    ((p.change .right).lit x y = true ↔ 4 ≤ x ∧ p.lit (x - 4) y = true)

theorem framed_blank (extended : Bool) : (blank extended).Framed :=
  fun _ _ h => by cases h

namespace Framed

variable {p : Picture} (h : p.Framed)
include h

/-- No change lights anything off the rectangle. -/
theorem change (c : Surface.Change) : (p.change c).Framed := by
  intro x y hl
  cases c with
  | set a b on =>
      simp only [Picture.change] at hl
      split at hl
      next he =>
        obtain ⟨⟨rfl, rfl⟩, hc⟩ := he
        exact hc
      next => exact h x y hl
  | clear => cases hl
  | extend on => cases hl
  | down n =>
      simp only [Picture.change, Bool.ite_eq_true_distrib] at hl
      split at hl
      next hc => exact hc.1
      next => cases hl
  | left =>
      simp only [Picture.change] at hl
      split at hl
      next hc => exact hc
      next => cases hl
  | right =>
      simp only [Picture.change] at hl
      split at hl
      next hc => exact hc.1
      next => cases hl

theorem after (cs : List Surface.Change) : (p.after cs).Framed := by
  induction cs generalizing p with
  | nil => exact h
  | cons c cs ih => exact ih (h.change c)

/-- A picture with all that is lit in the rectangle changes by the rules. -/
theorem lawful : p.Lawful where
  extended c := by cases c <;> rfl
  set a b on x y := by simp only [Picture.change, Prod.mk.injEq]
  clear _ _ := rfl
  extend _ _ _ := rfl
  down n x y hc := by simp [Picture.change, hc]
  left x y hc := by
    simp only [Picture.change, hc, if_true]
    exact ⟨fun hl => ⟨(h _ _ hl).1, hl⟩, And.right⟩
  right x y hc := by simp [Picture.change, hc]

end Framed

end Picture

namespace Surface

/-! ## Showing -/

/-- The surface behind changes, one after the other. -/
def after (s : Surface) (cs : List Change) : Surface := cs.foldl change s

/-- The picture answers all that can be asked of the surface. -/
structure Shows (s : Surface) (p : Picture) : Prop where
  extended : s.extended = p.extended
  size : (s.width, s.height) = if p.extended then (128, 64) else (64, 32)
  full : s.pixels.size = s.width * s.height
  get : ∀ x y, s.get x y = p.lit x y
  rows : s.rows = p.rows

/-- A row, pixel by pixel. -/
theorem row_eq {s : Surface} (hs : s.Full) {y : Nat} (hy : y < s.height) :
    s.row y = (List.range s.width).map fun x => s.get x y := by
  apply List.ext_getElem?
  intro x
  by_cases hx : x < s.width
  · rw [getElem?_row hs ⟨hx, hy⟩, List.getElem?_map, List.getElem?_range hx]
    rfl
  · have hl : (s.row y).length ≤ x := by
      rw [length_row hs hy]
      exact Nat.le_of_not_lt hx
    rw [List.getElem?_eq_none hl, List.getElem?_eq_none]
    simpa using hx

theorem rows_eq {s : Surface} (hs : s.Full) : s.rows = s.picture.rows := by
  apply List.map_congr_left
  intro y hy
  exact row_eq hs (List.mem_range.mp hy)

/-- A full surface shows its picture. -/
theorem shows_picture {s : Surface} (hs : s.Full) : s.Shows s.picture where
  extended := rfl
  size := by
    obtain ⟨e, p⟩ := s
    cases e <;> rfl
  full := hs
  get _ _ := rfl
  rows := rows_eq hs

namespace Shows

variable {s t : Surface} {p q : Picture} (h : s.Shows p)
include h

theorem picture_eq : s.picture = p :=
  Picture.ext h.extended (funext fun x => funext fun y => h.get x y)

theorem change (c : Change) : (s.change c).Shows (p.change c) := by
  rw [← h.picture_eq, ← picture_change h.full]
  exact shows_picture (full_change h.full c)

theorem after (cs : List Change) : (s.after cs).Shows (p.after cs) := by
  induction cs generalizing s p with
  | nil => exact h
  | cons c cs ih => exact ih (h.change c)

/-- Surfaces are equal just when they show the same. -/
theorem beq_iff (h' : t.Shows q) : (s == t) = true ↔ p = q := by
  rw [beq_iff_eq, ← picture_inj h.full h'.full, h.picture_eq, h'.picture_eq]

end Shows

theorem shows_blank (extended : Bool) : (blank extended).Shows (.blank extended) := by
  have hp : (blank extended).picture = .blank extended :=
    Picture.ext rfl (funext fun x => funext fun y => get_blank extended x y)
  rw [← hp]
  exact shows_picture (full_blank extended)

/-! ## Sharing -/

namespace Shared

/-- The change that a turn makes, if it makes one. -/
def Turn.change? : Turn → Option Change
  | .change c => some c
  | .fail => none

/-- The shared surface behind turns, one after the other. -/
def after (s : Shared) (ts : List Turn) : Shared := ts.foldl turn s

/-- Failures do not show: what is seen behind turns is the work of the changes alone. -/
theorem look_after (ts : List Turn) (s : Shared) :
    (s.after ts).look = s.look.after (ts.filterMap Turn.change?) := by
  induction ts generalizing s with
  | nil => rfl
  | cons t ts ih =>
      cases t with
      | change c => exact (ih _).trans (congrArg (Surface.after · _) (look_change s c))
      | fail => exact (ih _).trans (congrArg (Surface.after · _) (look_fail s))

end Shared

/-! ## Any history -/

/-- A new surface shows the blank picture, and after any changes it shows the picture that
they make of this one: its size is one of two, its pixels fill it, and the picture answers
for each pixel and row.  Nothing is lit off the rectangle, so the picture changes by the
rules.  Two surfaces with a history are equal just when they show the same picture.  A
surface that is shared looks like one that was changed directly, whoever fails with it
between the changes. -/
theorem history_shows_picture (cs : List Change) :
    let s := (blank false).after cs
    let p := (Picture.blank false).after cs
    s.Shows p ∧ p.Framed ∧ p.Lawful ∧
      (∀ cs', (s == (blank false).after cs') = true ↔ p = (Picture.blank false).after cs') ∧
      ∀ ts, ts.filterMap Shared.Turn.change? = cs → (Shared.start.after ts).look = s := by
  intro s p
  have h : s.Shows p := (shows_blank false).after cs
  have hp : p.Framed := (Picture.framed_blank false).after cs
  refine ⟨h, hp, hp.lawful, fun cs' => h.beq_iff ((shows_blank false).after cs'), ?_⟩
  rintro ts rfl
  exact Shared.look_after ts Shared.start

/-- The size is chosen, a pixel is lit and another one would be off the surface, then the
picture moves into the last row, with failures before and between. -/
theorem history_shows_picture_after_failures :
    let cs := [.set 63 0 true, .extend true, .set 5 1 true, .set 128 1 true, .down 62, .left]
    let ts := .fail :: cs.map Shared.Turn.change ++ [.fail]
    ts.filterMap Shared.Turn.change? = cs ∧
      (Shared.start.after ts).look.get 1 63 = true ∧
      (Shared.start.after ts).look.get 5 63 = false := by
  intro cs ts
  obtain ⟨h, -, -, -, hshared⟩ := history_shows_picture cs
  have hlook := hshared ts rfl
  refine ⟨rfl, ?_, ?_⟩
  · rw [hlook, h.get]
    decide
  · rw [hlook, h.get]
    decide

end Surface

end SuperChip
