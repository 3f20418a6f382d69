import SuperChip.Machine.Dump
import SuperChip.Run.Script

/-!
# The workbench

On a *workbench* a machine is tried out: programs are loaded, single steps are
taken, whole programs are run by a script, keys are pressed in between, and
everything can be looked at.  The bench has a speaker, keeps the journal, and
counts the calls of the speaker.

Single steps need timers.  The bench starts a pair of its own, with one tick a
second, when the first step is taken, and stops it when the bench is cleared.
These timers never tick on the bench.  A run brings its own timers; the ones of
the bench are put aside meanwhile.

A step that would wait for a key is *blocked*: it is not taken, unless someone
does on the keypad meanwhile what ends the wait.
-/

namespace SuperChip

/-- A machine that is tried out. -/
structure Bench where
  /-- The machine, with the timers of the bench. -/
  machine : Machine
  /-- The speaker. -/
  speaker : Speaker
  /-- Who is told about executed instructions. -/
  observer : Observer
  /-- Whether the timers of the bench were started. -/
  hasClocks : Bool
  /-- How often the speaker was switched on, beeped and was switched off. -/
  calls : Nat × Nat × Nat
  /-- The journal, oldest entry first. -/
  journal : Array Journal.Entry
  /-- Where the random bytes come from. -/
  seed : UInt32

namespace Bench

/-- Puts a new machine on the bench.  Unless someone watches the instructions
they are told to the journal, if the settings ask for that. -/
def setUp (settings : Settings) (speaker : Speaker) (watched : Bool) : Except Fault Bench := do
  let machine ← Machine.build settings
  let observer : Observer :=
    if watched then .watcher else if settings.trace then .journal else .nobody
  return ⟨machine, speaker, observer, false, (0, 0, 0), #[], 1⟩

/-- Adds entries to the journal. -/
def note (b : Bench) (entries : List Journal.Entry) : Bench :=
  { b with journal := b.journal ++ entries }

/-- Does something on the keypad. -/
def act (b : Bench) (a : Keypad.Action) : Bench := { b with machine := b.machine.act a }

/-- Changes the surface. -/
def change (b : Bench) (c : Surface.Change) : Bench := { b with machine := b.machine.change c }

/-- Puts a program into memory. -/
def load (b : Bench) (address : UInt16) (program : List UInt8) : Except Fault Unit × Bench :=
  match b.machine.load address program with
  | .ok (machine, entries) => (.ok (), { b with machine }.note entries)
  | .error fault => (.error fault, b)

/-! ## Timers of the bench -/

/-- Starts the timers of the bench unless they were started before. -/
def needClocks (b : Bench) : Bench :=
  if b.hasClocks then b
  else
    let started := Clocks.start 1 1 b.speaker.callback
    let noted := b.note started.entries
    match started.result with
    | .ok clocks => { noted with machine := { noted.machine with clocks }, hasClocks := true }
    | .error _ => noted

/-- Clears the bench: stops its timers if they were started. -/
def clear (b : Bench) : Bench :=
  if b.hasClocks then
    let (clocks, entries) := b.machine.clocks.stop
    { b with machine := { b.machine with clocks }, hasClocks := false }.note entries
  else b

/-- Replaces the timers of the bench. -/
def mapClocks (b : Bench) (f : Clocks → Clocks) : Bench :=
  let ready := b.needClocks
  { ready with machine := { ready.machine with clocks := f ready.machine.clocks } }

/-! ## Steps -/

/-- What is shown of a machine after each step. -/
structure Brief where
  /-- The program counter. -/
  pc : UInt16
  /-- The address register. -/
  index : UInt16
  /-- The number of open calls. -/
  used : Nat
  /-- V0 to VF. -/
  v : List UInt8
  /-- The number of lit pixels. -/
  lit : Nat
deriving DecidableEq

/-- The brief of the machine on the bench. -/
def brief (b : Bench) : Brief :=
  let m := b.machine
  ⟨m.pc, m.index, m.registers.stack.used, m.registers.v.toList, m.surface.lit⟩

/-- How a step on the bench comes out. -/
inductive Result where
  /-- It was taken and is done. -/
  | ok
  /-- It was taken and failed. -/
  | fault (fault : Fault)
  /-- It was not taken, since it would wait for a key. -/
  | blocked
deriving DecidableEq

/-- What is written down about a step on the bench. -/
structure Record where
  /-- What a watcher was told. -/
  traced : Option Traced
  /-- The machine after the step. -/
  brief : Brief
  /-- How the step came out. -/
  result : Result
deriving DecidableEq

/-- A random byte and the bench behind it. -/
def roll (b : Bench) : UInt8 × Bench :=
  (Run.Playing.byteOf b.seed, { b with seed := Run.Playing.nextSeed b.seed })

/-- Takes over what a step came to. -/
def take (b : Bench) (s : Machine.Step) : Option Traced × Result × Bench :=
  let told := (s.traced.map b.observer.entries).getD []
  let taken := { b with machine := s.machine }.note (s.entries ++ told)
  let seen := if b.observer = .watcher then s.traced else none
  match s.ending with
  | .done => (seen, .ok, taken)
  | .failed fault => (seen, .fault fault, taken)
  | .waiting => (seen, .blocked, taken)

/-- A step, unless it is blocked. -/
def advance (b : Bench) : Option Traced × Result × Bench :=
  if b.machine.wouldWait then (none, .blocked, b)
  else
    let (random, ready) := b.needClocks.roll
    ready.take (ready.machine.step random)

/-- A step while someone acts on the keypad.  Unless the action ends a wait of the
step it is not even tried. -/
def advanceDuring (b : Bench) (a : Keypad.Action) : Option Traced × Result × Bench :=
  if b.machine.wouldWait && a.wakes then
    let (random, ready) := b.needClocks.roll
    let parked := ready.machine.step random
    match parked.issued with
    | some t => ready.take ((parked.machine.act a).perform random t)
    | none => ready.take parked
  else b.advance

/-- Writes a step down. -/
def writeDown (taken : Option Traced × Result × Bench) : Record × Bench :=
  let (traced, result, b) := taken
  (⟨traced, b.brief, result⟩, b)

/-- Steps up to a number, the last of them the first that is not done. -/
def steps : Nat → Bench → List Record × Bench
  | 0, b => ([], b)
  | n + 1, b =>
      let (record, next) := writeDown b.advance
      if record.result = .ok then
        let (records, last) := steps n next
        (record :: records, last)
      else ([record], next)

/-- Steps up to a number, counting those that are done; with the count comes how
the last one came out. -/
def countSteps : Nat → Nat → Result → Bench → Nat × Result × Bench
  | 0, count, last, b => (count, last, b)
  | n + 1, count, _, b =>
      let (_, result, next) := b.advance
      if result = .ok then countSteps n (count + 1) result next else (count, result, next)

/-! ## Runs -/

/-- Runs the machine from an address by a script.  The run brings its own timers,
and behind it those of the bench are back. -/
def run (b : Bench) (entry : UInt16) (script : Run.Script) : Run × Bench :=
  let (run, seed) := (Run.start b.machine entry b.speaker b.observer).play script b.seed
  let (boots, beeps, offs) := run.calls
  let calls := (b.calls.1 + boots, b.calls.2.1 + beeps, b.calls.2.2 + offs)
  let machine := { run.machine with clocks := b.machine.clocks }
  (run, { b with machine, calls, seed }.note run.journal)

end Bench

end SuperChip
