import SuperChip.Surface

/-!
# Sprites

A *sprite* is a small picture, its rows given by one byte each or by two.  A set
bit is part of the picture, the highest bit of the first byte its leftmost pixel.

A sprite is *blitted* onto a surface at a place: every pixel under a set bit is
turned over.  Sprites wrap: what would be off the surface to the right or below
comes in from the left or from above.  The blit *collides* when it puts a lit
pixel out.
-/

namespace SuperChip

/-- A picture of one or two bytes a row. -/
structure Sprite where
  /-- Bytes of a row. -/
  rowBytes : Nat
  /-- The bytes, row after row. -/
  bytes : List UInt8
deriving DecidableEq

namespace Sprite

/-- The columns of the set bits of a byte whose highest bit has a given column. -/
def litColumns (first : Nat) (b : UInt8) : List Nat :=
  ((List.range 8).filter fun k => b.toNat.testBit (7 - k)).map (first + ·)

/-- Column and row of every set bit, row after row and from the left. -/
def cells (s : Sprite) : List (Nat × Nat) :=
  s.bytes.zipIdx.flatMap fun (b, k) =>
    (litColumns (k % s.rowBytes * 8) b).map fun column => (column, k / s.rowBytes)

end Sprite

namespace Surface

/-- Turns the pixel at a place over, and says whether it was lit. -/
def turn (s : Surface) (x y : Nat) : Surface × Bool :=
  let wasLit := s.get x y
  (s.set x y (!wasLit), wasLit)

/-- Turns over the pixels under the given cells of a picture at a place, and says
whether one of them was lit or `collided` held before. -/
def turnCells (x y : Nat) : List (Nat × Nat) → Surface → Bool → Surface × Bool
  | [], s, collided => (s, collided)
  | (column, row) :: cells, s, collided =>
      let (turned, wasLit) := s.turn ((x + column) % s.width) ((y + row) % s.height)
      turnCells x y cells turned (collided || wasLit)

/-- Blits a sprite at a place, and says whether it collides. -/
def blit (s : Surface) (x y : Nat) (sprite : Sprite) : Surface × Bool :=
  turnCells x y sprite.cells s false

end Surface

end SuperChip
