import SuperChip.Countdown
import SuperChip.Keypad

/-!
# Speakers

A speaker is told when a run begins, when the sound timer runs out, and when the
run ends.  Besides making a noise it may announce its power in the journal, do
things on the keypad, or fail, which brings the sound timer down.
-/

namespace SuperChip

/-- What a speaker does besides making a noise. -/
structure Speaker where
  /-- Whether it says in the journal when it is switched on and off. -/
  announces : Bool := false
  /-- What it does on the keypad when it is switched on. -/
  onBoot : List Keypad.Action := []
  /-- What it does on the keypad when it beeps. -/
  onBeep : List Keypad.Action := []
  /-- Whether it fails when it beeps. -/
  failsOnBeep : Bool := false
deriving DecidableEq

namespace Speaker

/-- A speaker that makes no noise. -/
def mute : Speaker := {}

/-- The bell of a terminal. -/
def bell : Speaker := { announces := true }

/-- A speaker as the callback of the sound timer. -/
def callback (s : Speaker) : Callback := if s.failsOnBeep then .fails else .returns

/-- What it says when it is switched on. -/
def bootEntries (s : Speaker) : List Journal.Entry := if s.announces then [.powerOn] else []

/-- What it says when it is switched off. -/
def offEntries (s : Speaker) : List Journal.Entry := if s.announces then [.powerOff] else []

end Speaker

end SuperChip
