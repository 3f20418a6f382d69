import SuperChip.Machine.Step
import SuperChip.Speaker

/-!
# Runs

A *run* takes a machine through a program.  It starts both timers, goes to the
entry address, switches the speaker on, and then alternates between looking
whether the machine is shut down and executing one instruction.  Shutdown ends
the run well, and so does nothing else; a fault ends it badly.  On either way out
the timers are stopped and the speaker is switched off.

A run is given as a state and its *moves*.  One move is the processor's; what it
does depends on the *phase*.  The others come from outside, in any order and at
any moment: someone acts on the keypad, or one of the two timers ticks.  So every
order in which things can happen in a run is a list of moves.

What happened is kept as the *history*, oldest first.  The journal of a run, its
trace and the calls of its speaker are read off the history.
-/

namespace SuperChip

/-! ## History -/

/-- Who is told about executed instructions. -/
inductive Observer where
  /-- Nobody. -/
  | nobody
  /-- The journal. -/
  | journal
  /-- A watcher from outside. -/
  | watcher
deriving DecidableEq

/-- What an observer of executed instructions leaves in the journal. -/
def Observer.entries (o : Observer) (t : Traced) : List Journal.Entry :=
  match o with
  | .journal => [.executed t]
  | _ => []

/-- Something that happened in a run. -/
inductive Happening where
  /-- The journal got an entry. -/
  | noted (entry : Journal.Entry)
  /-- The speaker was switched on. -/
  | boot
  /-- The speaker beeped. -/
  | beep
  /-- The speaker was switched off. -/
  | off
  /-- An instruction was executed. -/
  | executed (traced : Traced)
deriving DecidableEq

namespace Happening

/-- The journal entry of a happening, if it is one. -/
def entry? : Happening → Option Journal.Entry
  | .noted entry => some entry
  | _ => none

/-- The executed instruction of a happening, if it is one. -/
def traced? : Happening → Option Traced
  | .executed traced => some traced
  | _ => none

end Happening

/-! ## States -/

/-- Where the processor is in a run. -/
inductive Phase where
  /-- Before it looks whether the machine is shut down. -/
  | looking
  /-- Before an instruction. -/
  | issuing
  /-- In the wait of an instruction for a key. -/
  | waiting (traced : Traced)
  /-- Behind the last instruction, with a fault if there was one. -/
  | leaving (fault? : Option Fault)
  /-- At the end. -/
  | over (fault? : Option Fault)
deriving DecidableEq

/-- A run. -/
structure Run where
  /-- The machine. -/
  machine : Machine
  /-- The speaker. -/
  speaker : Speaker
  /-- Who is told about executed instructions. -/
  observer : Observer
  /-- Where the processor is. -/
  phase : Phase
  /-- What happened, oldest first. -/
  history : Array Happening
deriving DecidableEq

namespace Run

/-- Notes entries in the journal. -/
def note (r : Run) (entries : List Journal.Entry) : Run :=
  { r with history := r.history ++ entries.map Happening.noted }

/-- Adds a happening. -/
def add (r : Run) (h : Happening) : Run := { r with history := r.history.push h }

/-- Does things on the keypad, one after the other. -/
def actAll (r : Run) (actions : List Keypad.Action) : Run :=
  { r with machine := actions.foldl Machine.act r.machine }

/-- The beginning of a run: everything up to the first look for shutdown.  If the
timers cannot be started the run is over before it did anything. -/
def start (m : Machine) (entry : UInt16) (speaker : Speaker) (observer : Observer) : Run :=
  let started := Clocks.start m.settings.delayHz m.settings.soundHz speaker.callback
  let before (machine : Machine) (phase : Phase) : Run :=
    { machine, speaker, observer, phase, history := (started.entries.map Happening.noted).toArray }
  match started.result with
  | .error fault => before m (.over (some fault))
  | .ok clocks =>
      let booted := (before ({ m with clocks }.setPc entry) .looking).add .boot
      ((booted.actAll speaker.onBoot).note speaker.bootEntries).note [.running entry]

/-! ## Moves -/

/-- The end of a run: the timers are stopped and the speaker is switched off. -/
def leave (r : Run) (fault? : Option Fault) : Run :=
  let (clocks, entries) := r.machine.clocks.stop
  let stopped := { r with machine := { r.machine with clocks }, phase := .over fault? }
  ((stopped.note entries).add .off).note (r.speaker.offEntries ++ [.stoppedAt r.machine.pc])

/-- Takes over what a step came to. -/
def take (r : Run) (s : Machine.Step) : Run :=
  let noted := { r with machine := s.machine }.note s.entries
  match s.ending, s.issued with
  | .done, some t =>
      { (noted.add (.executed t)).note (r.observer.entries t) with phase := .looking }
  | .failed fault, _ => { noted with phase := .leaving (some fault) }
  | .waiting, some t => { noted with phase := .waiting t }
  | _, none => { noted with phase := .looking }

/-- The next move of the processor. -/
def proceed (r : Run) (random : UInt8) : Run :=
  match r.phase with
  | .looking => { r with phase := if r.machine.keypad.isShutdown then .leaving none else .issuing }
  | .issuing => r.take (r.machine.step random)
  | .waiting t => r.take (r.machine.perform random t)
  | .leaving fault? => r.leave fault?
  | .over _ => r

/-- Someone acts on the keypad. -/
def act (r : Run) (a : Keypad.Action) : Run := { r with machine := r.machine.act a }

/-- The delay timer ticks. -/
def tickDelay (r : Run) : Run :=
  { r with machine := { r.machine with clocks := r.machine.clocks.tickDelay } }

/-- The sound timer ticks; if it runs out, the speaker beeps. -/
def tickSound (r : Run) : Run :=
  let ticked := { r with machine := { r.machine with clocks := r.machine.clocks.tickSound } }
  if r.machine.clocks.sound.firesNext then (ticked.add .beep).actAll r.speaker.onBeep else ticked

/-- A move. -/
inductive Move where
  /-- The processor goes on; if it needs a random byte it is this one. -/
  | proceed (random : UInt8)
  /-- Someone acts on the keypad. -/
  | act (action : Keypad.Action)
  /-- The delay timer ticks. -/
  | tickDelay
  /-- The sound timer ticks. -/
  | tickSound
deriving DecidableEq

/-- The run after a move. -/
def move (r : Run) : Move → Run
  | .proceed random => r.proceed random
  | .act action => r.act action
  | .tickDelay => r.tickDelay
  | .tickSound => r.tickSound

/-- The run after moves, one after the other. -/
def moves (r : Run) (ms : List Move) : Run := ms.foldl move r

/-! ## What is read off -/

/-- What a run left in the journal. -/
def journal (r : Run) : List Journal.Entry := r.history.toList.filterMap Happening.entry?

/-- The instructions a run executed. -/
def trace (r : Run) : List Traced := r.history.toList.filterMap Happening.traced?

/-- How often the speaker was switched on, beeped and was switched off. -/
def calls (r : Run) : Nat × Nat × Nat :=
  (r.history.count .boot, r.history.count .beep, r.history.count .off)

end Run

end SuperChip
