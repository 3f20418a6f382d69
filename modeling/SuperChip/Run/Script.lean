import SuperChip.Run

/-!
# Scripted runs

A *script* says what the people and the clocks around a run do, so that the run
can be played to its end.  It knows three kinds of cues.

* A *cue after an instruction* is given by a number: right behind the executed
  instruction with that number something is done on the keypad.
* A *late cue* is given when the processor has waited for a key for some time, the
  *pause*.  When there is none left the machine is shut down instead.
* The *limit* is the number of instructions after which the machine is shut down.

Cues after an instruction and the limit need someone who watches the
instructions.  Without a watcher only `patience` ends a run that goes on.

Time stands still in a script unless it gives a *tempo*, the number of
instructions in a second.  Then both timers tick at their own frequencies, while
instructions are executed and in every pause.  A sound timer that runs out in a pause
may end the wait for a key, and with it the pause.
-/

namespace SuperChip

namespace Run

/-! ## Tempo -/

/-- How far each timer is on the way to its next tick, in parts of a second that
are counted by instructions. -/
structure Tempo where
  /-- Instructions in a second. -/
  rate : Nat
  /-- How far the delay timer is, out of `rate`. -/
  delayPart : Nat := 0
  /-- How far the sound timer is, out of `rate`. -/
  soundPart : Nat := 0

namespace Tempo

/-- Ticks that can matter: after this many a count is at zero. -/
def enough : Nat := 256

/-- Ticks of the delay timer. -/
def tickDelays : Nat → Run → Run
  | 0, r => r
  | n + 1, r => tickDelays n r.tickDelay

/-- Ticks of the sound timer. -/
def tickSounds : Nat → Run → Run
  | 0, r => r
  | n + 1, r => tickSounds n r.tickSound

/-- Lets the time of a number of instructions pass. -/
def pass (t : Tempo) (instructions : Nat) (r : Run) : Tempo × Run :=
  let delay := t.delayPart + instructions * r.machine.clocks.delay.hz.toNat
  let sound := t.soundPart + instructions * r.machine.clocks.sound.hz.toNat
  ({ t with delayPart := delay % t.rate, soundPart := sound % t.rate },
   tickSounds (min (sound / t.rate) enough) (tickDelays (min (delay / t.rate) enough) r))

/-- Instructions until the sound timer ticks next. -/
def untilSound (t : Tempo) (r : Run) : Nat :=
  (t.rate - t.soundPart + r.machine.clocks.sound.hz.toNat - 1) / r.machine.clocks.sound.hz.toNat

/-- Instructions in a pause, which is a tenth of a second. -/
def pauseLength (t : Tempo) : Nat := t.rate / 10

end Tempo

/-! ## Scripts -/

/-- What goes on around a run. -/
structure Script where
  /-- Instructions after which the machine is shut down. -/
  limit : Nat
  /-- Cues after an instruction. -/
  cues : List (Nat × Keypad.Action) := []
  /-- Late cues. -/
  late : List Keypad.Action := []
  /-- Instructions in a second; time stands still without. -/
  tempo : Option Nat := none

/-- A run that is being played. -/
structure Playing where
  /-- The run. -/
  run : Run
  /-- Late cues not yet given. -/
  late : List Keypad.Action
  /-- Where the timers are, if time passes. -/
  tempo : Option Tempo
  /-- Instructions executed so far. -/
  count : Nat
  /-- Where the random bytes come from. -/
  seed : UInt32

namespace Playing

/-- The seed behind a seed. -/
def nextSeed (seed : UInt32) : UInt32 := seed * 1664525 + 1013904223

/-- The byte of a seed. -/
def byteOf (seed : UInt32) : UInt8 := (seed >>> 24).toUInt8

/-- Whether the processor waits for a key. -/
def isWaiting (p : Playing) : Bool :=
  match p.run.phase with
  | .waiting _ => true
  | _ => false

/-- A move of the processor. -/
def proceed (p : Playing) : Playing :=
  { p with run := p.run.proceed (byteOf p.seed), seed := nextSeed p.seed }

/-- Lets time pass. -/
def pass (p : Playing) (instructions : Nat) : Playing :=
  match p.tempo with
  | none => p
  | some tempo =>
      let (tempo, run) := tempo.pass instructions p.run
      { p with tempo := some tempo, run }

/-- While the processor waits, lets the time of a number of instructions pass.  The
processor looks at the keys at every tick of the sound timer that can matter. -/
def listen : Nat → Nat → Playing → Playing
  | 0, _, p => p
  | n + 1, left, p =>
      match p.tempo with
      | none => p
      | some tempo =>
          let next := tempo.untilSound p.run
          if p.isWaiting then
            if p.run.machine.clocks.sound.isBusy && next ≤ left then
              listen n (left - next) (p.pass next).proceed
            else p.pass left
          else p

/-- The pause before a late cue, unless the wait for a key ends in it. -/
def pause (p : Playing) : Playing :=
  listen Tempo.enough ((p.tempo.map Tempo.pauseLength).getD 0) p

/-- While the processor waits, gives late cues, and then shuts the machine down. -/
def wake : List Keypad.Action → Playing → Playing
  | [], p =>
      let paused := p.pause
      if paused.isWaiting then { paused with run := paused.run.act .shutdown, late := [] }.proceed
      else paused
  | a :: late, p =>
      let paused := p.pause
      if paused.isWaiting then wake late { paused with run := paused.run.act a, late }.proceed
      else paused

/-- Brings a processor that waits for a key out of the wait. -/
def unblock (p : Playing) : Playing := wake p.late p

/-- What follows an executed instruction: its cues, and its time. -/
def follow (s : Script) (p : Playing) : Playing :=
  let count := p.count + 1
  let cues := (s.cues.filter (·.1 == count)).map (·.2)
  let run := if p.run.observer = .watcher then p.run.actAll cues else p.run
  { p with run, count }.pass 1

/-- Ends a run that was shut down. -/
def close (p : Playing) : Playing := p.proceed.proceed

/-- Plays a run until it is over or a number of instructions is executed, and then
shuts the machine down. -/
def play (s : Script) : Nat → Playing → Playing
  | 0, p => { p with run := p.run.act .shutdown }.close
  | n + 1, p =>
      let looked := p.proceed
      match looked.run.phase with
      | .issuing =>
          let stepped := looked.proceed.unblock
          match stepped.run.phase with
          | .looking => play s n (stepped.follow s)
          | _ => stepped.proceed
      | _ => looked.proceed

end Playing

/-- Instructions a run may execute when nobody watches it. -/
def patience : Nat := 3000000

/-- The number of instructions that are played at most. -/
def Script.length (s : Script) (o : Observer) : Nat :=
  if o = .watcher then max s.limit 1 else patience

/-- Plays a run by a script; with it comes the seed that is left. -/
def play (r : Run) (s : Script) (seed : UInt32) : Run × UInt32 :=
  let tempo : Option Tempo := s.tempo.map fun rate => ⟨max rate 1, 0, 0⟩
  let played := Playing.play s (s.length r.observer) ⟨r, s.late, tempo, 0, seed⟩
  (played.run, played.seed)

end Run

end SuperChip
