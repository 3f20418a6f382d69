import SuperChip.Guard
import SuperChip.Surface

/-!
# Guarded surfaces

What can be done to a surface, made of guarded operations only.  Each has the result
of its counterpart without guards, or none.

The numbers that a host hands in have 64 bits, and so has every number that is
computed from them.
-/

namespace SuperChip.Surface.Guarded

/-! ## Pixels -/

/-- Where a pixel is kept, with `none` inside if it is off the surface. -/
def index (s : Surface) (x y : Nat) : Option (Option Nat) :=
  if s.Covers x y then do
    let start ← Guard.held64 (y * s.width)
    return some (← Guard.held64 (start + x))
  else return none

/-- Whether a pixel is lit. -/
def get (s : Surface) (x y : Nat) : Option Bool := do
  match ← index s x y with
  | some i => Guard.cell s.pixels i
  | none => return false

/-- Lights a pixel or puts it out. -/
def set (s : Surface) (x y : Nat) (on : Bool) : Option Surface := do
  match ← index s x y with
  | some i => return { s with pixels := ← Guard.replace s.pixels i on }
  | none => return s

/-! ## The whole picture -/

/-- Chooses the size, with every pixel out. -/
def extend (on : Bool) : Option Surface := do
  let size ← Guard.held64 (columns on * lines on)
  return ⟨on, Array.replicate size false⟩

/-- Moves the picture down by a number of rows. -/
def down (s : Surface) (n : Nat) : Option Surface := do
  let moved ← Guard.held64 (min n s.height * s.width)
  let kept ← Guard.difference s.pixels.size moved
  let picture ← Guard.span s.pixels 0 kept
  let shifted ← Guard.copy s.pixels moved (← Guard.held64 (moved + kept)) picture
  return { s with pixels := ← Guard.copy shifted 0 moved (Array.replicate moved false) }

/-- Replaces every row by what becomes of it. -/
def mapRows (s : Surface) (f : List Bool → Option (List Bool)) : Option Surface := do
  let rows ← Guard.pieces s.width s.pixels.toList
  return { s with pixels := (← rows.mapM f).flatten.toArray }

/-- Moves a row to the left. -/
def leftRow (step : Nat) (row : List Bool) : Option (List Bool) := do
  let kept ← Guard.difference row.length step
  return (row.drop step).take kept ++ List.replicate step false

/-- Moves a row to the right. -/
def rightRow (step : Nat) (row : List Bool) : Option (List Bool) := do
  let kept ← Guard.difference row.length step
  return List.replicate step false ++ row.take kept

/-- Moves the picture to the left. -/
def left (s : Surface) : Option Surface := mapRows s (leftRow (min scrollStep s.width))

/-- Moves the picture to the right. -/
def right (s : Surface) : Option Surface := mapRows s (rightRow (min scrollStep s.width))

/-- The surface after a change. -/
def change (s : Surface) : Change → Option Surface
  | .set x y on => set s x y on
  | .clear => some s.clear
  | .extend on => extend on
  | .down n => down s n
  | .left => left s
  | .right => right s

/-! ## Sprites -/

/-- Turns a pixel over if a bit of a byte is set, the highest one being the first,
and says whether it was lit or `hit` held before. -/
def turnBit (x y : Nat) (byte : UInt8) (s : Surface) (hit : Bool) (bit : Nat) :
    Option (Surface × Bool) := do
  let place ← Guard.difference 7 bit
  if byte.toNat.testBit place then
    let column ← Guard.remainder (← Guard.held64 (x + bit)) s.width
    let lit ← get s column y
    return (← set s column y (!lit), hit || lit)
  else return (s, hit)

/-- Turns over the pixels under the bits of a byte. -/
def turnByte (x y : Nat) (byte : UInt8) (s : Surface) (hit : Bool) : Option (Surface × Bool) :=
  (List.range 8).foldlM (fun (s, hit) bit => turnBit x y byte s hit bit) (s, hit)

/-- Turns over the pixels under the bits of a row of bytes. -/
def turnRow (x y : Nat) (bytes : List UInt8) (s : Surface) (hit : Bool) :
    Option (Surface × Bool) :=
  bytes.zipIdx.foldlM (fun (s, hit) (byte, k) => do
    let column ← Guard.held64 (x + (← Guard.held64 (k * 8)))
    turnByte column y byte s hit) (s, hit)

/-- Blits a sprite at a place, and says whether it collides. -/
def blit (s : Surface) (x y rowBytes : Nat) (bytes : List UInt8) : Option (Surface × Bool) := do
  let rows ← Guard.pieces rowBytes bytes
  rows.zipIdx.foldlM (fun (s, hit) (row, k) => do
    let line ← Guard.remainder (← Guard.held64 (y + k)) s.height
    turnRow x line row s hit) (s, false)

end SuperChip.Surface.Guarded
