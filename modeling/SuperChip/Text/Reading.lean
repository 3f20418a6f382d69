import SuperChip.Text.Numeral

/-!
# Reading numbers

The number of a text is read digit by digit from the left, behind an optional
sign.  Reading stops at the first character that is wrong: it is no digit of the
base, or the number read up to it is beyond the limit.  A character that is both
counts as no digit.  Leading zeros are digits like others, so a text may have any
number of them.

A plus sign is always allowed, a minus sign only where negative numbers are.  A
sign alone is no number.
-/

namespace SuperChip.Reading

/-- Why a text is no number. -/
inductive NumberFault where
  /-- There is nothing to read. -/
  | empty
  /-- A character is no digit. -/
  | badDigit
  /-- The number is above the limit. -/
  | tooLarge
  /-- The number is below the limit. -/
  | tooSmall
deriving DecidableEq

/-- The wording of a number fault. -/
def NumberFault.message : NumberFault → String
  | .empty => "cannot parse integer from empty string"
  | .badDigit => "invalid digit found in string"
  | .tooLarge => "number too large to fit in target type"
  | .tooSmall => "number too small to fit in target type"

/-- The value of a digit in either case, if it is one of the base. -/
def digit? (base : Nat) (c : Char) : Option Nat :=
  let value? : Option Nat :=
    if '0' ≤ c ∧ c ≤ '9' then some (c.toNat - '0'.toNat)
    else if 'a' ≤ c ∧ c ≤ 'f' then some (c.toNat - 'a'.toNat + 10)
    else if 'A' ≤ c ∧ c ≤ 'F' then some (c.toNat - 'A'.toNat + 10)
    else none
  value?.filter (· < base)

/-- Reads digits behind a number read so far; `beyond` is the fault of a number
above the limit. -/
def digits (base limit : Nat) (beyond : NumberFault) : Nat → List Char → Except NumberFault Nat
  | n, [] => .ok n
  | n, c :: cs =>
      match digit? base c with
      | none => .error .badDigit
      | some d =>
          if limit < n * base + d then .error beyond
          else digits base limit beyond (n * base + d) cs

/-- Reads at least one digit. -/
def digitsFrom (base limit : Nat) (beyond : NumberFault) (cs : List Char) :
    Except NumberFault Nat :=
  if cs.isEmpty then .error .badDigit else digits base limit beyond 0 cs

/-- Reads a number from zero to a limit. -/
def natural (base limit : Nat) : List Char → Except NumberFault Nat
  | [] => .error .empty
  | '+' :: cs => digitsFrom base limit .tooLarge cs
  | cs => digits base limit .tooLarge 0 cs

/-- The largest number of 64 bits with a sign. -/
def mostSigned : Nat := 0x7FFFFFFFFFFFFFFF

/-- Reads a number in base ten that fits into 64 bits with a sign. -/
def signed : List Char → Except NumberFault Int
  | [] => .error .empty
  | '+' :: cs => (digitsFrom 10 mostSigned .tooLarge cs).map Int.ofNat
  | '-' :: cs => (digitsFrom 10 (mostSigned + 1) .tooSmall cs).map Int.negOfNat
  | cs => (digits 10 mostSigned .tooLarge 0 cs).map Int.ofNat

/-- Reads an address: a number of sixteen bits, in base sixteen behind `0x` or
`0X` and in base ten otherwise. -/
def address : List Char → Except NumberFault Nat
  | '0' :: 'x' :: cs => natural 16 0xFFFF cs
  | '0' :: 'X' :: cs => natural 16 0xFFFF cs
  | cs => natural 10 0xFFFF cs

end SuperChip.Reading
