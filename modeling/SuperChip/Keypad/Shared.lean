import SuperChip.Keypad

/-!
# A shared keypad

Any number of *waiters* wait for keys on one keypad while any number of *hands*
act on it, all at their own pace.  Only one of them has the keypad at a time.

A waiter that has the keypad looks at it.  If its wait does not end there it is
*parked*: it lets the keypad go and sleeps.  A sleeper is *roused* by a hand, or by
nothing at all, and then looks again as soon as it gets the keypad.  What it finds
then is what counts, not what was there when it was roused.

A hand that has the keypad acts on it and lets it go.  If the action is one that
ends waits the hand then owes a *call*, which it makes later, and a call rouses all
who sleep.

Everything that can happen is a *turn*, and a turn either fits the situation or
cannot be taken (`Shared.turn?`).
-/

namespace SuperChip

/-- Where a waiter is. -/
inductive Waiter where
  /-- It does not wait. -/
  | away
  /-- It wants to look at the keypad. -/
  | looking
  /-- It sleeps. -/
  | parked
  /-- Its wait has ended. -/
  | answered (found : Keypad.Waited)
deriving DecidableEq

namespace Keypad

/-- A keypad with its waiters and hands. -/
structure Shared where
  /-- The keypad. -/
  keypad : Keypad
  /-- Where each waiter is. -/
  waiter : Nat → Waiter
  /-- Whether a hand owes a call. -/
  owes : Nat → Bool

/-- Something that happens around a shared keypad. -/
inductive Turn where
  /-- A waiter begins to wait. -/
  | enter (w : Nat)
  /-- A waiter gets the keypad and looks at it. -/
  | look (w : Nat)
  /-- A sleeper is roused by nothing at all. -/
  | stir (w : Nat)
  /-- A hand gets the keypad and acts on it. -/
  | act (h : Nat) (action : Action)
  /-- A hand makes the call it owes. -/
  | call (h : Nat)
deriving DecidableEq

namespace Shared

/-- Nobody waits and nobody has acted. -/
def start (keypad : Keypad) : Shared := ⟨keypad, fun _ => .away, fun _ => false⟩

/-- Moves one waiter. -/
def setWaiter (s : Shared) (w : Nat) (place : Waiter) : Shared :=
  { s with waiter := fun i => if i = w then place else s.waiter i }

/-- Notes whether a hand owes a call. -/
def setOwes (s : Shared) (h : Nat) (owes : Bool) : Shared :=
  { s with owes := fun i => if i = h then owes else s.owes i }

/-- Where a waiter is after a call. -/
def roused : Waiter → Waiter
  | .parked => .looking
  | w => w

/-- The situation after a turn, if the turn can be taken. -/
def turn? (s : Shared) : Turn → Option Shared
  | .enter w =>
      match s.waiter w with
      | .away | .answered _ => some (s.setWaiter w .looking)
      | _ => none
  | .look w =>
      match s.waiter w with
      | .looking =>
          match s.keypad.wait with
          | .blocked => some (s.setWaiter w .parked)
          | found => some (s.setWaiter w (.answered found))
      | _ => none
  | .stir w =>
      match s.waiter w with
      | .parked => some (s.setWaiter w .looking)
      | _ => none
  | .act h action =>
      if s.owes h then none
      else some ({ s with keypad := s.keypad.act action }.setOwes h action.wakes)
  | .call h =>
      if s.owes h then
        some ({ s with waiter := fun i => roused (s.waiter i) }.setOwes h false)
      else none

/-- The situation after turns, one after the other, if all of them can be taken. -/
def turns? (s : Shared) (ts : List Turn) : Option Shared := ts.foldlM turn? s

end Shared

end Keypad

end SuperChip
