/-!
# Records

How a value is written out with its parts: a name, then the parts in braces when
they are named, in parentheses when they are not.  A sequence stands in brackets
and two parts are always separated by a comma and a blank.
-/

namespace SuperChip.Record

/-- Texts with a comma and a blank between two of them. -/
def separated (parts : List String) : String := ", ".intercalate parts

/-- A value with named parts, `Name \x7b part: text, … \x7d`. -/
def named (name : String) (parts : List (String × String)) : String :=
  name ++ " \x7b " ++ separated (parts.map fun part => part.1 ++ ": " ++ part.2) ++ " \x7d"

/-- A value with one part that has no name, `Name(text)`. -/
def single (name part : String) : String := name ++ "(" ++ part ++ ")"

/-- A sequence, `[text, …]`. -/
def sequence (parts : List String) : String := "[" ++ separated parts ++ "]"

/-- A truth value. -/
def truth (b : Bool) : String := if b then "true" else "false"

end SuperChip.Record
