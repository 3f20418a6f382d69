import SuperChip.Settings
import SuperChip.Text.Reading

/-!
# The command line

What stands behind the name of the program, in any order:

* the program to run, as the name of a file, once;
* `--trace` or `-t`, to report each instruction, at most once;
* options with a value, each at most once: the frequencies of the two timers, two
  delays, the depth of the call stack and two addresses.  The value stands behind
  `=` or is the next argument;
* `--help` or `-h`, and `--version` or `-V`.

Short options may share a hyphen.  Behind `--` nothing is an option.

Arguments are taken one by one and the first one that is wrong is reported.  A
value that is an argument of its own, and the name of the file, are only looked at
when the next argument has been recognised, or at the end.  So an argument that is
not recognised is reported before a wrong value in front of it, but a value behind
`=` is looked at at once.

An address is read in base sixteen behind `0x` and in base ten otherwise; all
other numbers are read in base ten.
-/

namespace SuperChip

namespace CommandLine

/-! ## Values -/

/-- The options with a value. -/
inductive Field where
  /-- Ticks of the delay timer in a second. -/
  | delayHz
  /-- Ticks of the sound timer in a second. -/
  | soundHz
  /-- Idle turns before each fetch. -/
  | fetchDelay
  /-- Idle turns before each look at the keypad. -/
  | peekDelay
  /-- Return addresses the call stack holds. -/
  | stack
  /-- The address a program starts at. -/
  | entry
  /-- The address a program is put at. -/
  | load
deriving DecidableEq

/-- The name of an option, without hyphens. -/
def Field.name : Field → String
  | .delayHz => "delay-hz"
  | .soundHz => "sound-hz"
  | .fetchDelay => "fetch-delay"
  | .peekDelay => "peek-delay"
  | .stack => "stack"
  | .entry => "entry"
  | .load => "load"

/-- All options with a value. -/
def Field.all : List Field :=
  [.delayHz, .soundHz, .fetchDelay, .peekDelay, .stack, .entry, .load]

/-- The option of a name. -/
def Field.ofName? (name : String) : Option Field := Field.all.find? (·.name == name)

/-- Why a value is not taken. -/
inductive ValueFault where
  /-- It is no number. -/
  | number (fault : Reading.NumberFault)
  /-- It is a number out of range. -/
  | range (value : Int) (most : Nat)
deriving DecidableEq

/-- A number in base ten, with a sign if it is below zero. -/
def signedDecimal (n : Int) : String :=
  if n < 0 then "-" ++ Numeral.decimal n.natAbs else Numeral.decimal n.natAbs

/-- The wording of a value fault. -/
def ValueFault.message : ValueFault → String
  | .number fault => fault.message
  | .range value most => signedDecimal value ++ " is not in 0..=" ++ Numeral.decimal most

/-- Reads a count of 32 bits: a number with a sign, which must then be in range. -/
def readCount (text : String) : Except ValueFault Nat :=
  match Reading.signed text.toList with
  | .error fault => .error (.number fault)
  | .ok n =>
      if 0 ≤ n ∧ n ≤ 0xFFFFFFFF then .ok n.toNat else .error (.range n 0xFFFFFFFF)

/-- Reads the value of an option. -/
def Field.read (f : Field) (text : String) : Except ValueFault Nat :=
  match f with
  | .delayHz | .soundHz | .fetchDelay | .peekDelay => readCount text
  | .stack => (Reading.natural 10 0xFFFFFFFFFFFFFFFF text.toList).mapError .number
  | .entry | .load => (Reading.address text.toList).mapError .number

/-! ## Requests -/

/-- What a command line asks for. -/
structure Request where
  /-- The file with the program. -/
  rom : String
  /-- Whether each instruction is reported. -/
  trace : Bool
  /-- The values given, by option. -/
  values : List (Field × Nat)
deriving DecidableEq

/-- The value of an option that is not given. -/
def Field.default : Field → Nat
  | .delayHz | .soundHz => 60
  | .fetchDelay => 5000
  | .peekDelay => 0
  | .stack => 24
  | .entry | .load => 0x200

/-- The value of an option. -/
def Request.value (r : Request) (f : Field) : Nat := (r.values.lookup f).getD f.default

/-- The settings of a machine as asked for. -/
def Request.settings (r : Request) : Settings where
  stackDepth := r.value .stack
  entry := UInt16.ofNat (r.value .entry)
  loadAddress := UInt16.ofNat (r.value .load)
  delayHz := UInt32.ofNat (r.value .delayHz)
  soundHz := UInt32.ofNat (r.value .soundHz)
  fetchDelay := UInt32.ofNat (r.value .fetchDelay)
  peekDelay := UInt32.ofNat (r.value .peekDelay)
  trace := r.trace

/-- Why a command line asks for no machine. -/
inductive Refusal where
  /-- No file is named. -/
  | romMissing
  /-- The name of the file is empty. -/
  | romEmpty
  /-- An argument is not recognised, or it is one too many. -/
  | unknown
  /-- An option is given twice. -/
  | repeated
  /-- An option lacks its value. -/
  | valueMissing
  /-- An option has a value and takes none. -/
  | valueUnasked
  /-- The value of an option is not taken. -/
  | badValue (fault : ValueFault)
  /-- It asks for help. -/
  | help
  /-- It asks for the version. -/
  | version
deriving DecidableEq

/-- The line that tells the version. -/
def versionLine : String := "chip8 0.1.0\n"

/-- The text that goes with a refusal, if there is one. -/
def Refusal.message? : Refusal → Option String
  | .badValue fault => some fault.message
  | .version => some versionLine
  | _ => none

/-! ## Taking arguments -/

/-- An argument that was recognised and not looked at yet. -/
inductive Pending where
  /-- There is none. -/
  | nothing
  /-- An option whose value is to come. -/
  | awaiting (field : Field)
  /-- The value of an option. -/
  | value (field : Field) (text : String)
  /-- The name of the file. -/
  | rom (text : String)
deriving DecidableEq

/-- What is known of a command line in the middle of it. -/
structure Draft where
  /-- The file, once its name was looked at. -/
  rom : Option String
  /-- Whether `--trace` was given. -/
  trace : Bool
  /-- The values given so far. -/
  values : List (Field × Nat)
  /-- What was not looked at yet. -/
  pending : Pending
  /-- Whether a name of a file was given. -/
  hasRom : Bool
  /-- Whether options are over. -/
  onlyRom : Bool
deriving DecidableEq

namespace Draft

/-- Nothing is known. -/
def empty : Draft := ⟨none, false, [], .nothing, false, false⟩

/-- Looks at the value of an option. -/
def setValue (d : Draft) (f : Field) (text : String) : Except Refusal Draft :=
  if (d.values.lookup f).isSome then .error .repeated
  else match f.read text with
    | .ok value => .ok { d with values := (f, value) :: d.values }
    | .error fault => .error (.badValue fault)

/-- Looks at what was not looked at yet. -/
def settle (d : Draft) : Except Refusal Draft :=
  let rest := { d with pending := .nothing }
  match d.pending with
  | .nothing => .ok d
  | .awaiting _ => .error .valueMissing
  | .value f text => rest.setValue f text
  | .rom text => if text.isEmpty then .error .romEmpty else .ok { rest with rom := some text }

/-- Takes `--trace`. -/
def takeTrace (d : Draft) : Except Refusal Draft := do
  let settled ← d.settle
  if settled.trace then .error .repeated else return { settled with trace := true }

/-- Takes a request for help or for the version. -/
def takeAsk (d : Draft) (r : Refusal) : Except Refusal Draft := do
  let _ ← d.settle
  .error r

/-- Takes a long option, given by its name and the value behind `=` if it has one. -/
def takeLong (d : Draft) (name : String) (value? : Option String) : Except Refusal Draft :=
  match Field.ofName? name, value? with
  | some f, some text => do (← d.settle).setValue f text
  | some f, none => do return { ← d.settle with pending := .awaiting f }
  | none, _ =>
      if name = "trace" ∨ name = "help" ∨ name = "version" then
        match value? with
        | some _ => .error .valueUnasked
        | none =>
            if name = "trace" then d.takeTrace
            else d.takeAsk (if name = "help" then .help else .version)
      else .error .unknown

/-- Takes the short options that share a hyphen. -/
def takeShorts (d : Draft) : List Char → Except Refusal Draft
  | [] => .ok d
  | 't' :: cs => do (← d.takeTrace).takeShorts cs
  | 'h' :: _ => d.takeAsk .help
  | 'V' :: _ => d.takeAsk .version
  | _ :: _ => .error .unknown

/-- Takes an argument that is no option: the value of the option in front of it,
or the name of the file. -/
def takePlain (d : Draft) (text : String) : Except Refusal Draft :=
  match d.pending, d.onlyRom with
  | .awaiting f, false => .ok { d with pending := .value f text }
  | _, _ =>
      if d.hasRom then .error .unknown
      else do return { ← d.settle with pending := .rom text, hasRom := true }

/-- Takes an argument. -/
def take (d : Draft) (argument : String) : Except Refusal Draft :=
  if d.onlyRom then d.takePlain argument
  else match argument.toList with
    | ['-', '-'] => .ok { d with onlyRom := true }
    | '-' :: '-' :: long =>
        let name := String.ofList (long.takeWhile (· != '='))
        match long.dropWhile (· != '=') with
        | _ :: value => d.takeLong name (some (String.ofList value))
        | [] => d.takeLong name none
    | '-' :: c :: shorts => d.takeShorts (c :: shorts)
    | _ => d.takePlain argument

/-- Looks at what is left when all arguments were taken. -/
def finish (d : Draft) : Except Refusal Request := do
  let settled ← d.settle
  match settled.rom with
  | some rom => return ⟨rom, settled.trace, settled.values⟩
  | none => .error .romMissing

end Draft

/-- Reads the arguments behind the name of the program. -/
def read (arguments : List String) : Except Refusal Request := do
  (← arguments.foldlM Draft.take Draft.empty).finish

end CommandLine

end SuperChip
