import SuperChip.Surface.Lemmas
import SuperChip.Surface.Sprite

/-!
# What a blit keeps

A blit turns pixels over one after the other, each as a change of a single pixel.  So
it keeps the size of the surface (`extended_blit`) and keeps it full (`full_blit`).
-/

namespace SuperChip.Surface

/-! ## Cells one after the other -/

/-- Cells are turned over one part after the other. -/
theorem turnCells_append (x y : Nat) :
    ∀ (cells cells' : List (Nat × Nat)) (s : Surface) (hit : Bool),
      turnCells x y (cells ++ cells') s hit =
        turnCells x y cells' (turnCells x y cells s hit).1 (turnCells x y cells s hit).2
  | [], _, _, _ => rfl
  | (_, _) :: cells, cells', _, _ => turnCells_append x y cells cells' _ _

/-- Turning cells over keeps the resolution. -/
theorem extended_turnCells (x y : Nat) :
    ∀ (cells : List (Nat × Nat)) (s : Surface) (hit : Bool),
      (turnCells x y cells s hit).1.extended = s.extended
  | [], _, _ => rfl
  | (_, _) :: cells, s, _ => by
      rw [turnCells]
      exact (extended_turnCells x y cells _ _).trans (extended_set s _ _ _)

/-- A full surface stays full when cells are turned over. -/
theorem full_turnCells (x y : Nat) :
    ∀ (cells : List (Nat × Nat)) {s : Surface} (hit : Bool), s.Full →
      (turnCells x y cells s hit).1.Full
  | [], _, _, hs => hs
  | (_, _) :: cells, _, _, hs => by
      rw [turnCells]
      exact full_turnCells x y cells _ (full_set hs _ _ _)

/-! ## Blits -/

/-- A sprite keeps the resolution. -/
theorem extended_blit (s : Surface) (x y : Nat) (sprite : Sprite) :
    (s.blit x y sprite).1.extended = s.extended := extended_turnCells x y _ s false

/-- A full surface stays full when a sprite is drawn. -/
theorem full_blit {s : Surface} (hs : s.Full) (x y : Nat) (sprite : Sprite) :
    (s.blit x y sprite).1.Full := full_turnCells x y _ false hs

end SuperChip.Surface
