import SuperChip.Bench
import SuperChip.CommandLine

/-!
# The program

Runs a program without a window and without anybody at the keypad: until it fails
or waits for a key, and for `patience` instructions at the most.  Then the picture
and the registers are printed.  The journal goes to standard error when the trace
is asked for.
-/

namespace SuperChip

/-- How the program is called. -/
def usage : String :=
  "Runs a CHIP-8 or Super-CHIP ROM.\n\nUsage: chip8 [OPTIONS] <ROM>\n\nOptions:\n"
    ++ "  -t, --trace\n"
    ++ String.join (CommandLine.Field.all.map fun f => "      --" ++ f.name ++ " <N>\n")
    ++ "  -h, --help\n  -V, --version\n"

/-- What is said about a command line that asks for no machine. -/
def CommandLine.Refusal.explain : CommandLine.Refusal → String
  | .romMissing => "no ROM is given"
  | .romEmpty => "the name of the ROM is empty"
  | .unknown => "an argument is not recognised"
  | .repeated => "an option is given twice"
  | .valueMissing => "an option lacks its value"
  | .valueUnasked => "an option takes no value"
  | .badValue fault => "a value is not taken: " ++ fault.message
  | .help => usage
  | .version => CommandLine.versionLine

/-- A row of pixels as text. -/
def rowText (row : List Bool) : String := String.ofList (row.map fun on => if on then '#' else '.')

/-- Runs a program on a new machine; the texts are what is printed, the journal and
the fault if there is one. -/
def rehearse (settings : Settings) (program : List UInt8) :
    Except Fault (List String × List String × Option Fault) := do
  let bench ← Bench.setUp settings .bell false
  let (loaded, ready) := bench.load settings.loadAddress program
  loaded
  let (run, last) := ready.run settings.entry { limit := Run.patience, tempo := some 1000 }
  let fault? := match run.phase with
    | .over fault? => fault?
    | _ => none
  return (last.machine.surface.rows.map rowText ++ [last.machine.dump],
    last.journal.toList.map Journal.Entry.line, fault?)

end SuperChip

open SuperChip in
/-- The program. -/
def main (arguments : List String) : IO UInt32 := do
  match CommandLine.read arguments with
  | .error .help => IO.print usage; return 0
  | .error .version => IO.print CommandLine.versionLine; return 0
  | .error refusal => IO.eprintln ("error: " ++ refusal.explain); return 2
  | .ok request =>
      let rom ← IO.FS.readBinFile request.rom
      match rehearse request.settings rom.toList with
      | .error fault => IO.eprintln fault.message; return 1
      | .ok (shown, journal, fault?) =>
          if request.trace then journal.forM fun line => IO.eprintln line
          shown.forM fun line => IO.println line
          match fault? with
          | some fault => IO.eprintln fault.message; return 1
          | none => return 0
