import Keysong.Command.Run

/-!
# The command

Runs a command line: reads the settings file, prints what the command prints, reports what it
reports, and writes the files that it leaves behind.  There are no outputs to choose from here, so
a melody is played silently.
-/

namespace Keysong.Command

/-- The contents of the settings file, if it can be read. -/
def readSettings : IO (Option String) := do
  try
    return some (← IO.FS.readFile settingsName)
  catch _ => return none

/-- What is shown when a command line cannot be run. -/
def usage : String :=
  "usage: keysong [--config FILE] [--verbose] COMMAND TEXT [--bpm BPM]\n" ++
    "commands: play [--device NAME], export [-o FILE], show"

/-- Prints and writes what a command leaves behind. -/
def Outcome.deliver (o : Outcome) (least : Level) : IO UInt32 := do
  for notice in Notice.atLeast least o.notices do
    IO.eprintln (notice.level.name ++ ": " ++ Text.shownText notice.text)
  IO.print o.printed
  for (name, contents) in o.files do
    IO.FS.writeBinFile (Text.shownText name) (ByteArray.mk contents.toArray)
  match o.result with
  | .ok code => return UInt32.ofNat code
  | .error fault =>
    IO.eprintln fault.message
    return 1

end Keysong.Command

open Keysong Keysong.Command in
def main (line : List String) : IO UInt32 := do
  match arguments line with
  | .error .help =>
    IO.println usage
    return 0
  | .error .misuse =>
    IO.eprintln usage
    return 2
  | .ok a =>
    let world : World :=
      { settings := ← readSettings
        desk := { outputs := [], listFault := none, openFault := none, lines := [] }
        carries := fun _ => true
        stopAt := none }
    (runArguments a world).deliver (if a.verbose then .debug else .info)
