import SuperChip.Surface

/-!
# A shared surface

A machine draws on a surface while others look at it, a screen for instance.  They
get it one at a time and only for one call.

Whoever fails while it has the surface leaves it *marked*.  The mark comes with the
surface ever after, so those who get it could refuse it.  They do not: pixels are
plain data, and what is there is of use in any case.
-/

namespace SuperChip.Surface

/-- A surface that is shared. -/
structure Shared where
  /-- The surface. -/
  surface : Surface
  /-- Whether someone failed while having it. -/
  marked : Bool
deriving DecidableEq

/-- A surface as it is handed over. -/
inductive Handed where
  /-- Nobody failed with it. -/
  | clean (surface : Surface)
  /-- Someone failed with it. -/
  | marked (surface : Surface)
deriving DecidableEq

/-- The surface that was handed over, marked or not. -/
def Handed.surface : Handed → Surface
  | .clean s => s
  | .marked s => s

namespace Shared

/-- A new surface that is shared. -/
def start : Shared := ⟨blank false, false⟩

/-- What someone gets who asks for the surface. -/
def hand (s : Shared) : Handed := if s.marked then .marked s.surface else .clean s.surface

/-- What someone sees who looks at the surface. -/
def look (s : Shared) : Surface := s.hand.surface

/-- Something that someone does who has the surface. -/
inductive Turn where
  /-- It changes the surface. -/
  | change (c : Change)
  /-- It fails. -/
  | fail
deriving DecidableEq

/-- The shared surface behind a turn. -/
def turn (s : Shared) : Turn → Shared
  | .change c => { s with surface := s.hand.surface.change c }
  | .fail => { s with marked := true }

/-! ## What is seen -/

@[simp] theorem look_eq (s : Shared) : s.look = s.surface := by
  unfold look hand
  split <;> rfl

theorem look_change (s : Shared) (c : Change) : (s.turn (.change c)).look = s.look.change c := by
  rw [look_eq]
  rfl

theorem look_fail (s : Shared) : (s.turn .fail).look = s.look := by
  rw [look_eq, look_eq]
  rfl

end Shared

end SuperChip.Surface
