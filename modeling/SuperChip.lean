import SuperChip.Bench
import SuperChip.CallStack
import SuperChip.Clocks
import SuperChip.CommandLine
import SuperChip.Countdown
import SuperChip.Fault
import SuperChip.Glyphs
import SuperChip.Guard
import SuperChip.Instruction
import SuperChip.Instruction.Decode
import SuperChip.Instruction.Listing
import SuperChip.Instruction.Traced
import SuperChip.Journal
import SuperChip.Keypad
import SuperChip.Keypad.Shared
import SuperChip.Machine
import SuperChip.Machine.Dump
import SuperChip.Machine.Guarded
import SuperChip.Machine.Step
import SuperChip.Main
import SuperChip.Proofs.Glyphs
import SuperChip.Proofs.Guarded.Blit
import SuperChip.Proofs.Guarded.Machine
import SuperChip.Proofs.Guarded.Ram
import SuperChip.Proofs.Guarded.Session
import SuperChip.Proofs.Guarded.Surface
import SuperChip.Proofs.Lasting
import SuperChip.Proofs.Machine.Calls
import SuperChip.Proofs.Machine.Effect
import SuperChip.Proofs.Machine.Failure
import SuperChip.Proofs.Machine.Frame
import SuperChip.Proofs.Machine.Refusal
import SuperChip.Proofs.Machine.Sound
import SuperChip.Proofs.Machine.Stage
import SuperChip.Proofs.Run.Moves
import SuperChip.Proofs.Run.Sound
import SuperChip.Proofs.Session
import SuperChip.Proofs.Session.Calls
import SuperChip.Proofs.Surface.Blit
import SuperChip.Proofs.Waiting
import SuperChip.Proofs.Words
import SuperChip.Ram
import SuperChip.Ram.Guarded
import SuperChip.Registers
import SuperChip.Run
import SuperChip.Run.Script
import SuperChip.Settings
import SuperChip.Speaker
import SuperChip.Surface
import SuperChip.Surface.Guarded
import SuperChip.Surface.Lemmas
import SuperChip.Surface.Picture
import SuperChip.Surface.Rgb
import SuperChip.Surface.Shared
import SuperChip.Surface.Sprite
import SuperChip.Text.Numeral
import SuperChip.Text.Reading
import SuperChip.Text.Record
import SuperChip.Proofs.Run.Rounds
import SuperChip.Proofs.Run.Shutdown
import SuperChip.Proofs.Countdown
import SuperChip.Proofs.Run.Delay
import SuperChip.Proofs.Keypad
import SuperChip.Proofs.Keypad.Shared
import SuperChip.Proofs.Keypad.Presses
import SuperChip.Proofs.Session.Entry
import SuperChip.Proofs.Run.Course
import SuperChip.Proofs.Run.Beeps
import SuperChip.Proofs.Run.Brackets
import SuperChip.Proofs.Surface.History
import SuperChip.Proofs.Machine.Writes
import SuperChip.Proofs.Surface.Stamp
import SuperChip.Proofs.Machine.Drawing
import SuperChip.Proofs.Session.Moments
import SuperChip.Proofs.Session.Saved
import SuperChip.Proofs.Session.Stints
import SuperChip.Proofs.Machine.Flow
import SuperChip.Proofs.Session.Telling
import SuperChip.Proofs.Session.Keys
import SuperChip.Proofs.Ram.Map
import SuperChip.Proofs.CallStack
import SuperChip.Proofs.Session.Accepted
import SuperChip.Proofs.Machine.Ink
import SuperChip.Proofs.Machine.Plain
import SuperChip.Proofs.Run.Plain
import SuperChip.Proofs.Run.Reports
import SuperChip.Proofs.Session.Observing
import SuperChip.Proofs.Machine.Arithmetic
import SuperChip.Proofs.Surface.Scrolling
import SuperChip.Proofs.Text.Address
import SuperChip.Proofs.Instruction.Assembly
import SuperChip.Proofs.Instruction.Forms
import SuperChip.Proofs.Machine.Unread
import SuperChip.Proofs.Countdown.Failing
import SuperChip.Proofs.CommandLine
import SuperChip.Proofs.Ram.Bounds
import SuperChip.Proofs.Surface.Frame
import SuperChip.Proofs.Machine.Dump
