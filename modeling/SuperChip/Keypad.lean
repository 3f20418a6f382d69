import SuperChip.Journal
import SuperChip.Settings

/-!
# The keypad

Sixteen keys in four rows of four, and a shutdown key beside them.  A key is
named in two ways: by its *position* on the pad, counted row by row, and by the
*label* printed on it, the value a program sees.

```text
1 2 3 C
4 5 6 D
7 8 9 E
A 0 B F
```

At most one of the sixteen keys is held at a time; pressing another one takes
its place.  Shutdown is for good.

A program may *wait* for a key.  The wait ends at once when the machine is shut
down or a key is held, and shutdown comes first.  Otherwise it blocks until a
key is pressed or the machine is shut down; releasing ends no wait.
-/

namespace SuperChip

/-- The state of the keys. -/
structure Keypad where
  /-- The position of the key held, if one is. -/
  held : Option (Fin 16)
  /-- Whether the shutdown key was ever pressed. -/
  isShutdown : Bool
  /-- Idle turns before each look at a key.  They cost time and change nothing. -/
  peekDelay : UInt32
deriving DecidableEq

namespace Keypad

/-- A keypad nobody has touched. -/
def untouched (peekDelay : UInt32) : Keypad := ⟨none, false, peekDelay⟩

/-! ## Labels -/

/-- The labels by position. -/
def labels : Vector UInt8 16 :=
  #v[0x1, 0x2, 0x3, 0xC,
     0x4, 0x5, 0x6, 0xD,
     0x7, 0x8, 0x9, 0xE,
     0xA, 0x0, 0xB, 0xF]

/-- The label at a position, if the pad has it. -/
def label? (position : Nat) : Option UInt8 := labels[position]?

/-- The position of the key with a label. -/
def position? (label : UInt8) : Option Nat := labels.toList.findIdx? (· == label)

/-! ## What can be done to the keys -/

/-- What happens on the keypad. -/
inductive Action where
  /-- The key at a position goes down; a position off the pad is nothing. -/
  | press (position : Nat)
  /-- Whatever key is held goes up. -/
  | release
  /-- The shutdown key is pressed. -/
  | shutdown
deriving DecidableEq

/-- Holds the key at a position, in place of any other. -/
def press (k : Keypad) (position : Nat) : Keypad :=
  if h : position < 16 then { k with held := some ⟨position, h⟩ } else k

/-- Lets go of the key held. -/
def release (k : Keypad) : Keypad := { k with held := none }

/-- Shuts the machine down. -/
def shutdown (k : Keypad) : Keypad := { k with isShutdown := true }

/-- The keypad after an action. -/
def act (k : Keypad) : Action → Keypad
  | .press position => k.press position
  | .release => k.release
  | .shutdown => k.shutdown

/-! ## Looking at the keys -/

/-- Whether the key at a position is held. -/
def pressed (k : Keypad) (position : Nat) : Bool :=
  k.held.map Fin.val == some position

/-- Whether the key with a label is held. -/
def peek (k : Keypad) (label : UInt8) : Bool :=
  match position? label with
  | some position => k.pressed position
  | none => false

/-- All bytes that label a key that is held. -/
def heldLabels (k : Keypad) : List UInt8 :=
  ((List.range 256).map UInt8.ofNat).filter k.peek

/-! ## Waiting -/

/-- How a wait for a key comes out. -/
inductive Waited where
  /-- The key with this label is held. -/
  | key (label : UInt8)
  /-- The machine is shut down. -/
  | interrupted
  /-- Neither, so far. -/
  | blocked
deriving DecidableEq

/-- What a wait finds when it looks at the keys. -/
def wait (k : Keypad) : Waited :=
  if k.isShutdown then .interrupted
  else match k.held with
    | some position => .key (labels.get position)
    | none => .blocked

/-- What a wait leaves in the journal. -/
def Waited.entries : Waited → List Journal.Entry
  | .interrupted => [.waitInterrupted]
  | _ => []

/-- Whether an action ends a wait that is blocked. -/
def Action.wakes : Action → Bool
  | .press position => position < 16
  | .release => false
  | .shutdown => true

/-- A wait while someone else acts.  A wait that is not blocked ends before the
action.  A blocked one ends because of it, and an action that ends no wait is
not even tried. -/
def waitDuring (k : Keypad) (a : Action) : Waited × Keypad :=
  match k.wait with
  | .blocked => if a.wakes then ((k.act a).wait, k.act a) else (.blocked, k)
  | found => (found, k.act a)

/-! ## Laws -/

/-- Shutdown is for good. -/
theorem isShutdown_act {k : Keypad} (a : Action) (h : k.isShutdown = true) :
    (k.act a).isShutdown = true := by
  cases a with
  | press position =>
      simp only [act, press]
      split <;> exact h
  | release => exact h
  | shutdown => rfl

end Keypad

/-- The keypad of a machine with given settings. -/
def Settings.keypad (s : Settings) : Keypad := .untouched s.peekDelay

end SuperChip
