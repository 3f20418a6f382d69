/-!
# Guarded operations

Some operations do not make sense everywhere: a cell of a row behind its end, a run
of cells that leaves its row, a copy between runs of two lengths, a remainder by
zero, a number that the width kept for it does not hold.  A *guarded* operation has
no result where it makes no sense.

A computation made of guarded operations has a result just when all of them make
sense, so that it has one is a proof that nothing senseless happens in it.
-/

namespace SuperChip.Guard

/-! ## Numbers -/

/-- A number that is held where there are as many numbers as given. -/
def held (size n : Nat) : Option Nat := if n < size then some n else none

/-- A number of sixteen bits. -/
def held16 (n : Nat) : Option Nat := held UInt16.size n

/-- A number of 64 bits. -/
def held64 (n : Nat) : Option Nat := held UInt64.size n

/-- A difference that is not below zero. -/
def difference (a b : Nat) : Option Nat := if b ≤ a then some (a - b) else none

/-- A remainder by a number that is not zero. -/
def remainder (a b : Nat) : Option Nat := if b = 0 then none else some (a % b)

/-! ## Rows of cells -/

/-- A cell of a row. -/
def cell {α : Type} (row : Array α) (i : Nat) : Option α := row[i]?

/-- A row with one of its cells replaced. -/
def replace {α : Type} (row : Array α) (i : Nat) (a : α) : Option (Array α) :=
  if i < row.size then some (row.setIfInBounds i a) else none

/-- The cells from an index to behind another one. -/
def span {α : Type} (row : Array α) (first behind : Nat) : Option (Array α) :=
  if first ≤ behind ∧ behind ≤ row.size then some (row.extract first behind) else none

/-- A row with the cells from an index to behind another one replaced by as many. -/
def copy {α : Type} (row : Array α) (first behind : Nat) (cells : Array α) :
    Option (Array α) :=
  if first ≤ behind ∧ behind ≤ row.size ∧ cells.size = behind - first then
    some (row.extract 0 first ++ cells ++ row.extract behind row.size)
  else none

/-- Cells cut off a row, a number of them at a time, until none is left. -/
def cut {α : Type} (n : Nat) : Nat → List α → List (List α)
  | 0, _ => []
  | _, [] => []
  | k + 1, cells => cells.take n :: cut n k (cells.drop n)

/-- Cells in pieces of a length that is not zero; the last piece may be shorter. -/
def pieces {α : Type} (n : Nat) (cells : List α) : Option (List (List α)) :=
  if n = 0 then none else some (cut n cells.length cells)

/-! ## When there is a result -/

theorem held_of_lt {size n : Nat} (h : n < size) : held size n = some n := if_pos h

/-- Numbers that are not large have 64 bits. -/
theorem held64_of_lt {n : Nat} (h : n < 4294967296) : held64 n = some n :=
  held_of_lt (Nat.lt_trans h (by decide))

theorem difference_of_le {a b : Nat} (h : b ≤ a) : difference a b = some (a - b) := if_pos h

theorem remainder_of_pos {a b : Nat} (h : 0 < b) : remainder a b = some (a % b) :=
  if_neg (Nat.ne_of_gt h)

theorem replace_of_lt {α : Type} {row : Array α} {i : Nat} (h : i < row.size) (a : α) :
    replace row i a = some (row.setIfInBounds i a) := if_pos h

theorem span_of_le {α : Type} {row : Array α} {first behind : Nat} (h : first ≤ behind)
    (hr : behind ≤ row.size) : span row first behind = some (row.extract first behind) :=
  if_pos ⟨h, hr⟩

end SuperChip.Guard
