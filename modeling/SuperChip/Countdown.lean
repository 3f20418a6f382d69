import SuperChip.Fault
import SuperChip.Journal

/-!
# Countdowns

A *countdown* is a byte that goes down by one at every tick of its own clock and
stays at zero.  Setting it takes effect at once and may happen at any time.
When a tick takes the count from one to zero the countdown *fires*: its callback
is called.

The clock is run by a *worker*.  A callback that fails brings the worker down;
the count can still be read and set, but nothing ticks any more.  A countdown
ends by waiting for its worker, and says in the journal if the worker had been
brought down.  Ending it a second time does nothing.
-/

namespace SuperChip

/-- What a countdown calls when it fires. -/
inductive Callback where
  /-- Something that returns. -/
  | returns
  /-- Something that is called and fails. -/
  | fails
deriving DecidableEq

/-- The state of a countdown's worker. -/
inductive Worker where
  /-- It ticks. -/
  | ticking
  /-- A failed callback brought it down. -/
  | down
  /-- It was waited for and is gone. -/
  | ended
deriving DecidableEq

/-- A countdown. -/
structure Countdown where
  /-- What the journal calls it. -/
  name : String
  /-- Ticks in a second. -/
  hz : UInt32
  /-- What it calls when it fires, if it calls anything. -/
  callback : Option Callback
  /-- The count. -/
  count : UInt8
  /-- The state of its worker. -/
  worker : Worker
  /-- How often its callback was called. -/
  calls : Nat
deriving DecidableEq

namespace Countdown

/-! ## Beginning and end -/

/-- A countdown that was never started. -/
def idle (name : String) : Countdown := ⟨name, 0, none, 0, .ended, 0⟩

/-- Starts a countdown at zero. -/
def start (name : String) (hz : UInt32) (callback : Option Callback) :
    Except Fault (Countdown × List Journal.Entry) :=
  if hz = 0 then .error (.badSettings (.timerWithoutTicks name))
  else .ok (⟨name, hz, callback, 0, .ticking, 0⟩, [.timerStarted name hz])

/-- Waits for the worker, unless that was done before. -/
def finish (c : Countdown) : Countdown × List Journal.Entry :=
  match c.worker with
  | .ticking => ({ c with worker := .ended }, [])
  | .down => ({ c with worker := .ended }, [.callbackFailed])
  | .ended => (c, [])

/-- Gives a countdown up, which finishes it. -/
def drop (c : Countdown) : Countdown × List Journal.Entry := c.finish

/-- Stops a countdown: finishes it, then gives it up. -/
def stop (c : Countdown) : Countdown × List Journal.Entry :=
  let (finished, first) := c.finish
  let (dropped, second) := finished.drop
  (dropped, first ++ second)

/-! ## Counting -/

/-- Replaces the count. -/
def set (c : Countdown) (count : UInt8) : Countdown := { c with count }

/-- Whether the next tick fires. -/
def firesNext (c : Countdown) : Bool := c.worker == .ticking && c.count == 1

/-- Calls the callback, if there is one. -/
def fire (c : Countdown) : Countdown :=
  match c.callback with
  | none => c
  | some .returns => { c with calls := c.calls + 1 }
  | some .fails => { c with calls := c.calls + 1, worker := .down }

/-- One less, but not less than zero. -/
def lower (count : UInt8) : UInt8 := if count = 0 then 0 else count - 1

/-- One tick. -/
def tick (c : Countdown) : Countdown :=
  if c.worker = .ticking then
    let counted := { c with count := lower c.count }
    if c.count = 1 then counted.fire else counted
  else c

/-- A number of ticks. -/
def ticks : Nat → Countdown → Countdown
  | 0, c => c
  | n + 1, c => ticks n c.tick

/-- As many ticks as it takes to reach zero. -/
def settle (c : Countdown) : Countdown := ticks c.count.toNat c

/-- Whether ticks still change the count. -/
def isBusy (c : Countdown) : Bool := c.worker == .ticking && c.count != 0

/-! ## Laws -/

/-- A countdown without ticks is not started. -/
theorem start_zero {name : String} {callback : Option Callback} :
    start name 0 callback = .error (.badSettings (.timerWithoutTicks name)) := if_pos rfl

theorem start_of_ne_zero {name : String} {hz : UInt32} {callback : Option Callback} (h : hz ≠ 0) :
    start name hz callback =
      .ok (⟨name, hz, callback, 0, .ticking, 0⟩, [.timerStarted name hz]) := if_neg h

theorem toNat_lower (count : UInt8) : (lower count).toNat = count.toNat - 1 := by
  unfold lower
  split
  · simp_all
  · rename_i h
    have h1 : 1 ≤ count := by
      have : count.toNat ≠ 0 := fun e => h (UInt8.toNat_inj.mp e)
      rw [UInt8.le_iff_toNat_le]
      simpa [Nat.one_le_iff_ne_zero] using this
    exact UInt8.toNat_sub_of_le count 1 h1

@[simp] theorem count_fire (c : Countdown) : c.fire.count = c.count := by
  unfold fire
  split <;> rfl

/-- A tick takes one away. -/
theorem count_tick {c : Countdown} (h : c.worker = .ticking) : c.tick.count = lower c.count := by
  rw [tick, if_pos h]
  split
  · exact count_fire _
  · rfl

/-- Without a worker nothing ticks. -/
theorem tick_of_not_ticking {c : Countdown} (h : c.worker ≠ .ticking) : c.tick = c := if_neg h

theorem finish_worker (c : Countdown) : c.finish.1.worker = .ended := by
  unfold finish
  cases h : c.worker <;> simp [h]

/-- Giving up what was finished says nothing more. -/
theorem drop_finish (c : Countdown) : c.finish.1.drop = (c.finish.1, []) := by
  unfold drop finish
  cases h : c.worker <;> simp [h]

theorem stop_eq_finish (c : Countdown) : c.stop = c.finish := by
  simp only [stop, drop_finish, List.append_nil]

end Countdown

end SuperChip
