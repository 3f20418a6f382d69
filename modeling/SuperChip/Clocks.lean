import SuperChip.Countdown

/-!
# The two timers

A machine counts two things down: the *delay*, which only programs look at and which
calls nothing, and the *sound*, which always calls for a beep when it runs out.  Each
has a clock of its own, and neither ever changes the other.

They are started together, the delay first.  If the sound cannot be started the
delay is given up again, so either both are there or none is.
-/

namespace SuperChip

/-- The delay and the sound timer. -/
structure Clocks where
  /-- What programs wait by. -/
  delay : Countdown
  /-- What beeps when it runs out. -/
  sound : Countdown
deriving DecidableEq

namespace Clocks

/-- Two timers that were never started. -/
def idle : Clocks := ⟨.idle "delay", .idle "sound"⟩

/-- What starting one of the two timers comes to. -/
structure Part where
  /-- Both timers, the one that was started among them. -/
  clocks : Clocks
  /-- Why it was not started. -/
  fault? : Option Fault
  /-- What is left in the journal. -/
  entries : List Journal.Entry

/-- Starts the delay at zero. -/
def startDelay (c : Clocks) (hz : UInt32) : Part :=
  match Countdown.start "delay" hz none with
  | .error fault => ⟨c, some fault, []⟩
  | .ok (delay, entries) => ⟨{ c with delay }, none, entries⟩

/-- Starts the sound at zero.  If it cannot be started the delay is given up. -/
def startSound (c : Clocks) (hz : UInt32) (onSound : Callback) : Part :=
  match Countdown.start "sound" hz (some onSound) with
  | .error fault =>
      let (delay, entries) := c.delay.drop
      ⟨{ c with delay }, some fault, entries⟩
  | .ok (sound, entries) => ⟨{ c with sound }, none, entries⟩

/-- How an attempt to start both timers comes out, with what it leaves in the
journal. -/
structure Started where
  /-- The timers, or why they are not there. -/
  result : Except Fault Clocks
  /-- What the attempt left in the journal. -/
  entries : List Journal.Entry

/-- Starts both timers at zero, and keeps what becomes of each countdown that is
started. -/
def attempt (delayHz soundHz : UInt32) (onSound : Callback) : Started × List Countdown :=
  let first := idle.startDelay delayHz
  match first.fault? with
  | some fault => (⟨.error fault, first.entries⟩, [])
  | none =>
      let second := first.clocks.startSound soundHz onSound
      let entries := first.entries ++ second.entries
      match second.fault? with
      | some fault => (⟨.error fault, entries⟩, [second.clocks.delay])
      | none => (⟨.ok second.clocks, entries⟩, [second.clocks.delay, second.clocks.sound])

/-- Starts both timers at zero. -/
def start (delayHz soundHz : UInt32) (onSound : Callback) : Started :=
  (attempt delayHz soundHz onSound).1

/-- Stops both timers, the delay first. -/
def stop (c : Clocks) : Clocks × List Journal.Entry :=
  let (delay, delayEntries) := c.delay.stop
  let (sound, soundEntries) := c.sound.stop
  (⟨delay, sound⟩, delayEntries ++ soundEntries ++ [.timersStopped])

/-- Gives both timers up, the delay first. -/
def drop (c : Clocks) : Clocks × List Journal.Entry :=
  let (delay, delayEntries) := c.delay.drop
  let (sound, soundEntries) := c.sound.drop
  (⟨delay, sound⟩, delayEntries ++ soundEntries)

/-- One tick of the delay. -/
def tickDelay (c : Clocks) : Clocks := { c with delay := c.delay.tick }

/-- One tick of the sound. -/
def tickSound (c : Clocks) : Clocks := { c with sound := c.sound.tick }

/-- Lets both timers run out. -/
def settle (c : Clocks) : Clocks := ⟨c.delay.settle, c.sound.settle⟩

/-- Sets the delay count. -/
def setDelay (c : Clocks) (count : UInt8) : Clocks := { c with delay := c.delay.set count }

/-- Sets the sound count. -/
def setSound (c : Clocks) (count : UInt8) : Clocks := { c with sound := c.sound.set count }

/-- How often a callback was called. -/
def calls (c : Clocks) : Nat := c.delay.calls + c.sound.calls

/-! ## Laws -/

variable {delayHz soundHz : UInt32}

/-- A delay with ticks is started at zero. -/
theorem startDelay_of_ne_zero (c : Clocks) (h : delayHz ≠ 0) : c.startDelay delayHz =
    ⟨{ c with delay := ⟨"delay", delayHz, none, 0, .ticking, 0⟩ }, none,
      [.timerStarted "delay" delayHz]⟩ := by
  rw [startDelay, Countdown.start_of_ne_zero h]

/-- So is a sound with ticks. -/
theorem startSound_of_ne_zero (c : Clocks) (h : soundHz ≠ 0) (onSound : Callback) :
    c.startSound soundHz onSound =
      ⟨{ c with sound := ⟨"sound", soundHz, some onSound, 0, .ticking, 0⟩ }, none,
        [.timerStarted "sound" soundHz]⟩ := by
  rw [startSound, Countdown.start_of_ne_zero h]

/-- Starting the delay leaves the sound as it is. -/
theorem sound_startDelay (c : Clocks) (hz : UInt32) : (c.startDelay hz).clocks.sound = c.sound := by
  unfold startDelay
  split <;> rfl

/-- A sound without ticks stays as it is. -/
theorem sound_startSound_zero (c : Clocks) (onSound : Callback) :
    (c.startSound 0 onSound).clocks.sound = c.sound := by
  rw [startSound, Countdown.start_zero]

/-- If the delay cannot be started, nothing is. -/
theorem attempt_zero (soundHz : UInt32) (onSound : Callback) : attempt 0 soundHz onSound =
    (⟨.error (.badSettings (.timerWithoutTicks "delay")), []⟩, []) := by
  rw [attempt, startDelay, Countdown.start_zero]

/-- If only the sound cannot be started, the delay has been started, and is over again. -/
theorem attempt_of_sound_zero (hd : delayHz ≠ 0) (onSound : Callback) :
    attempt delayHz 0 onSound =
      (⟨.error (.badSettings (.timerWithoutTicks "sound")), [.timerStarted "delay" delayHz]⟩,
        [⟨"delay", delayHz, none, 0, .ended, 0⟩]) := by
  rw [attempt, startDelay_of_ne_zero _ hd, startSound, Countdown.start_zero]
  rfl

/-- Otherwise both are started. -/
theorem attempt_of_ne_zero (hd : delayHz ≠ 0) (hs : soundHz ≠ 0) (onSound : Callback) :
    attempt delayHz soundHz onSound =
      (⟨.ok ⟨⟨"delay", delayHz, none, 0, .ticking, 0⟩,
          ⟨"sound", soundHz, some onSound, 0, .ticking, 0⟩⟩,
        [.timerStarted "delay" delayHz, .timerStarted "sound" soundHz]⟩,
        [⟨"delay", delayHz, none, 0, .ticking, 0⟩,
          ⟨"sound", soundHz, some onSound, 0, .ticking, 0⟩]) := by
  rw [attempt, startDelay_of_ne_zero _ hd, startSound_of_ne_zero _ hs]
  rfl

end Clocks

end SuperChip
