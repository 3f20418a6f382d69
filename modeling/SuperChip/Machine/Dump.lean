import SuperChip.Machine

/-!
# Register dumps

What a machine is asked for when it has stopped: three lines of registers.  The
first one holds the program counter, the word it points at, the address register
and the number of open calls; the others hold the V registers, eight a line.
Where no word can be read at the program counter, zero stands in its place.
-/

namespace SuperChip.Machine

/-- A name with a number in brackets, the name padded with blanks to four columns. -/
def dumpField (name : String) (width n : Nat) : String :=
  name ++ String.ofList (List.replicate (4 - name.length) ' ') ++ "["
    ++ Numeral.lowerHex width n ++ "]"

/-- The word at the program counter, or zero. -/
def nextWord (m : Machine) : UInt16 :=
  match m.ram.word m.pc with
  | .ok word => word
  | .error _ => 0

/-- The fields of eight V registers, from one on. -/
def dumpV (m : Machine) (first : Nat) : List String :=
  (List.range' first 8).map fun x =>
    dumpField ("V" ++ Numeral.upperHex 1 x) 2 (m.v (UInt8.ofNat x)).toNat

/-- The fields of the first line. -/
def dumpHead (m : Machine) : List String :=
  [dumpField "PC" 4 m.pc.toNat,
   dumpField "OP" 4 m.nextWord.toNat,
   dumpField "I" 4 m.index.toNat,
   dumpField "SP" 4 m.registers.stack.used]

/-- The lines of a dump. -/
def dumpLines (m : Machine) : List String :=
  [m.dumpHead, m.dumpV 0, m.dumpV 8].map (" ".intercalate ·)

/-- A dump. -/
def dump (m : Machine) : String := "\n".intercalate m.dumpLines

end SuperChip.Machine
