/-!
# Numerals

How numbers are written.  A numeral is its digits, most significant first, with
zeros put in front when a least width is asked for.  A width never cuts: a
number with more digits than the width keeps all of them, so a numeral always
determines its number.

Hexadecimal digits come in both cases, `lowerHex` and `upperHex`.  The two
`address` forms put `0x` in front.
-/

namespace SuperChip.Numeral

/-- Zeros in front of the digits until there are at least `width` of them. -/
def padTo (width : Nat) (digits : List Char) : List Char :=
  List.replicate (width - digits.length) '0' ++ digits

/-- A number in base ten. -/
def decimal (n : Nat) : String := String.ofList (Nat.toDigits 10 n)

/-- A number in base sixteen with lower-case digits, at least `width` of them. -/
def lowerHex (width n : Nat) : String :=
  String.ofList (padTo width (Nat.toDigits 16 n))

/-- A number in base sixteen with upper-case digits, at least `width` of them. -/
def upperHex (width n : Nat) : String :=
  String.ofList (padTo width ((Nat.toDigits 16 n).map Char.toUpper))

/-- A lower-case hexadecimal numeral behind `0x`. -/
def lowerAddress (width n : Nat) : String := "0x" ++ lowerHex width n

/-- An upper-case hexadecimal numeral behind `0x`. -/
def upperAddress (width n : Nat) : String := "0x" ++ upperHex width n

end SuperChip.Numeral
