import Keysong.Command.Arguments
import Keysong.Command.Path
import Keysong.Melody
import Keysong.Settings

/-!
# Running a command

What a command line does: it reads the settings, compiles the text, and shows, exports or plays
the melody.

## Main Definitions

* `World` — what a command finds: a settings file, outputs, a console
* `Outcome` — what it leaves behind
* `run` — the outcome of a command line
-/

namespace Keysong.Command

/-- What a command finds when it is run. -/
structure World where
  /-- The contents of the settings file, if there is one. -/
  settings : Option String
  desk : Device.Desk
  /-- Whether the send with a given number gets through. -/
  carries : Nat → Bool
  /-- When the user interrupts, if at all. -/
  stopAt : Option Float

/-- What a command leaves behind. -/
structure Outcome where
  /-- The exit code, or the fault that ended the command. -/
  result : Except Fault Nat
  printed : String := ""
  files : List (FileName × Midi.Bytes) := []
  deeds : List (Instrument.Deed Float) := []
  channel : Midi.Channel := Midi.firstChannel
  notices : List Notice := []

/-- The name under which settings are looked for. -/
def settingsName : String := "typetone.yaml"

/-- The working directory of a command. -/
def World.folder (w : World) : Folder := ⟨if w.settings.isSome then [settingsName] else []⟩

/-- The contents of the file with a path; nothing if there is no such file.  The settings file is
the only one that can be read, besides the device that has no contents. -/
def World.read (w : World) (path : Value) : Except Fault (Option String) :=
  match path with
  | .text s =>
    if s.contains '\x00' then .ok none
    else
      match w.folder.find s with
      | .error _ => .ok none
      | .ok (.file _) => .ok w.settings
      | .ok .sink => .ok (some "")
      | .ok _ => .error (.directoryNotFile s)
  | other => .error (.fileNameNotText other)

/-- Whether a fault in the settings is reported instead of ending the command: values that are not
allowed, and files that are not well formed. -/
def isReported (f : Fault) : Bool :=
  match f.kind with
  | .invalidValue | .invalidTempo | .unencodable | .malformedDocument => true
  | _ => false

/-- The settings and the compiler of a command. -/
def prepare (path : String) (contents : Option String) : Except Fault (Settings × Compiler) := do
  let settings ← Settings.load path contents
  return (settings, ← settings.compiler)

/-- The listing of a melody: its events, and a line with their number, length and tempo. -/
def listing (m : Melody) : String :=
  String.join (m.events.map fun e => e.describe ++ "\n")
    ++ "\n" ++ toString m.events.length ++ " events, " ++ Decimal.fixed 2 m.seconds
    ++ " seconds at " ++ Decimal.general m.tempo.bpm ++ " BPM\n"

/-- Writes a melody to a file. -/
def exportTo (m : Melody) (folder : Folder) (target : Value) : Outcome :=
  if target.isWritable then
    let destination := folder.destination target
    let blocked :=
      match destination with
      | .error fault => some fault
      | .ok _ => none
    let saved := m.save blocked
    { result :=
        match saved.fault with
        | some fault => .error fault
        | none => .ok 0
      files :=
        match destination, saved.contents with
        | .ok (some name), some contents => [(name, contents)]
        | _, _ => []
      notices := m.saveNotices target.display blocked }
  else { result := .error .unwritableInteger, notices := m.bytesNotices }

/-- Plays a melody. -/
def play (m : Melody) (w : World) (device : Value) (channel : Int) (watches : Bool) : Outcome :=
  let announced : List Notice := [⟨.info, "Playing melody. Press Ctrl+C to stop."⟩]
  match Instrument.onDesk w.desk device true channel watches w.carries with
  | .error fault => { result := .error fault, notices := announced }
  | .ok (selection, instrument) =>
    let played := (m.perform instrument w.stopAt).instrument
    { result := .ok 0
      printed := selection.printed
      deeds := played.deeds
      channel := played.channel
      notices := announced ++ played.notices }

/-- A value that was given on the command line, or else the one in the settings. -/
def given (onLine setting : Value) : Value := if onLine.isTruthy then onLine else setting

/-- An outcome that is reported as an error. -/
def refused (message : String) : Outcome :=
  { result := .ok 2, notices := [⟨.error, message⟩] }

/-- Adds what was reported before. -/
def Outcome.behind (o : Outcome) (notices : List Notice) : Outcome :=
  { o with notices := notices ++ o.notices }

/-- The tempo of a command: that of the command line, or else that of the settings. -/
def tempoOf (a : Arguments) (s : Settings) : Value :=
  match a.bpm with
  | .null => s.bpm
  | bpm => bpm

/-- Runs a command on its melody. -/
def runMelody (a : Arguments) (s : Settings) (m : Melody) (w : World) : Outcome :=
  match a.name with
  | .showEvents => { result := .ok 0, printed := listing m }
  | .exportFile => exportTo m w.folder (given a.output s.filename)
  | .play => play m w (given a.device s.deviceName) s.channel s.spinWait

/-- Runs a command with its settings. -/
def runSettings (a : Arguments) (s : Settings) (c : Compiler) (w : World) : Outcome :=
  match tempoOf a s with
  | .null => refused "No tempo given: pass --bpm or set tempo.bpm in the config file"
  | bpm =>
    match Melody.ofText c a.text bpm s.trackName with
    | .error fault =>
      match fault.kind with
      | .invalidTempo => refused fault.message
      | _ => { result := .error fault }
    | .ok m => (runMelody a s m w).behind (m.textNotices c)

/-- Runs a command whose words were read. -/
def runArguments (a : Arguments) (w : World) : Outcome :=
  match w.read a.config with
  | .error fault => { result := .error fault }
  | .ok contents =>
    let path := Text.shownText a.config.display
    let outcome : Outcome :=
      match prepare path contents with
      | .error fault =>
        if isReported fault then refused ("Invalid config " ++ path ++ ": " ++ fault.message)
        else { result := .error fault }
      | .ok (s, c) => runSettings a s c w
    outcome.behind (Settings.loadNotices path contents)

/-- Runs a command line. -/
def run (line : List String) (w : World) : Except Refusal Outcome := do
  let a ← arguments line
  return runArguments a w

end Keysong.Command
