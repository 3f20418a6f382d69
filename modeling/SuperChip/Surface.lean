/-!
# The surface

A surface is a rectangle of pixels, each lit or not.  It comes in two sizes, 64
columns by 32 rows and, when *extended*, 128 by 64.  Column and row are counted
from the upper left corner, from zero.

The pixels are kept in one array, row after row from the top, and fill it (`Full`).
A place off the surface reads as unlit, and setting it changes nothing.

Six *changes* can be made to a surface.  Besides setting one pixel these are
clearing it; choosing its size, which clears it even where the size stays; and
moving the picture down by any number of rows, or left or right by four columns.
What moves over an edge is gone, and what comes in from the other edge is unlit.
-/

namespace SuperChip

/-- A surface of pixels. -/
structure Surface where
  /-- Whether it has the large size. -/
  extended : Bool
  /-- The pixels, row after row. -/
  pixels : Array Bool
deriving DecidableEq

namespace Surface

/-! ## Sizes -/

/-- Columns of a surface of either size. -/
def columns (extended : Bool) : Nat := if extended then 128 else 64

/-- Rows of a surface of either size. -/
def lines (extended : Bool) : Nat := if extended then 64 else 32

/-- The number of columns. -/
def width (s : Surface) : Nat := columns s.extended

/-- The number of rows. -/
def height (s : Surface) : Nat := lines s.extended

/-- A surface of either size with no pixel lit. -/
def blank (extended : Bool) : Surface :=
  ⟨extended, Array.replicate (columns extended * lines extended) false⟩

/-- The pixels fill the rectangle. -/
def Full (s : Surface) : Prop := s.pixels.size = s.width * s.height

/-! ## Pixels -/

/-- A place on a surface. -/
def Covers (s : Surface) (x y : Nat) : Prop := x < s.width ∧ y < s.height

instance (s : Surface) (x y : Nat) : Decidable (s.Covers x y) :=
  inferInstanceAs (Decidable (_ ∧ _))

/-- Where a pixel is kept, if it is on the surface. -/
def index? (s : Surface) (x y : Nat) : Option Nat :=
  if s.Covers x y then some (y * s.width + x) else none

/-- Whether a pixel is lit. -/
def get (s : Surface) (x y : Nat) : Bool :=
  match s.index? x y with
  | some i => s.pixels[i]?.getD false
  | none => false

/-- Lights a pixel or puts it out. -/
def set (s : Surface) (x y : Nat) (on : Bool) : Surface :=
  match s.index? x y with
  | some i => { s with pixels := s.pixels.setIfInBounds i on }
  | none => s

/-- A row, from the left. -/
def row (s : Surface) (y : Nat) : List Bool :=
  (s.pixels.extract (y * s.width) ((y + 1) * s.width)).toList

/-- The rows from the top. -/
def rows (s : Surface) : List (List Bool) := (List.range s.height).map s.row

/-- The number of lit pixels. -/
def lit (s : Surface) : Nat := s.pixels.foldl (fun n on => if on then n + 1 else n) 0

/-! ## Changes of the whole picture -/

/-- Puts every pixel out. -/
def clear (s : Surface) : Surface := { s with pixels := Array.replicate s.pixels.size false }

/-- Chooses the size, with every pixel out. -/
def extend (_ : Surface) (on : Bool) : Surface := blank on

/-- Columns a picture moves sideways. -/
def scrollStep : Nat := 4

/-- Moves the picture down by a number of rows. -/
def down (s : Surface) (n : Nat) : Surface :=
  let moved := min n s.height * s.width
  { s with
    pixels := Array.replicate moved false ++ s.pixels.extract 0 (s.pixels.size - moved) }

/-- Replaces every row by what becomes of it. -/
def mapRows (s : Surface) (f : List Bool → List Bool) : Surface :=
  { s with pixels := (s.rows.flatMap f).toArray }

/-- Moves the picture to the left. -/
def left (s : Surface) : Surface :=
  s.mapRows fun row => row.drop scrollStep ++ List.replicate scrollStep false

/-- Moves the picture to the right. -/
def right (s : Surface) : Surface :=
  s.mapRows fun row => List.replicate scrollStep false ++ row.take (row.length - scrollStep)

/-- A change of a surface. -/
inductive Change where
  /-- Lights a pixel or puts it out. -/
  | set (x y : Nat) (on : Bool)
  /-- Puts every pixel out. -/
  | clear
  /-- Chooses the size. -/
  | extend (on : Bool)
  /-- Moves the picture down. -/
  | down (n : Nat)
  /-- Moves the picture left. -/
  | left
  /-- Moves the picture right. -/
  | right
deriving DecidableEq

/-- The surface after a change. -/
def change (s : Surface) : Change → Surface
  | .set x y on => s.set x y on
  | .clear => s.clear
  | .extend on => s.extend on
  | .down n => s.down n
  | .left => s.left
  | .right => s.right

/-! ## Bits -/

/-- The bits of a byte, the highest first. -/
def bits (b : UInt8) : List Bool :=
  (List.range 8).map fun k => b.toNat.testBit (7 - k)

/-- Sets pixels to the bits of a row of bytes, from a place on to the right.
Behind the last column it goes on in the first one, a row further down. -/
def paint (s : Surface) (x y : Nat) (bytes : List UInt8) : Surface :=
  ((bytes.flatMap bits).zipIdx).foldl
    (fun s (on, k) => s.set ((x + k) % s.width) (y + (x + k) / s.width) on) s

/-- A row of pixels as bytes, eight pixels each, the leftmost in the highest bit. -/
def pack : List Bool → List UInt8
  | a :: b :: c :: d :: e :: f :: g :: h :: row =>
      UInt8.ofNat ([a, b, c, d, e, f, g, h].foldl (fun n on => 2 * n + on.toNat) 0) :: pack row
  | _ => []

/-- The rows from the top as bytes; a row with no pixel lit has none. -/
def packedRows (s : Surface) : List (List UInt8) :=
  s.rows.map fun row => if row.any id then pack row else []

end Surface

end SuperChip
