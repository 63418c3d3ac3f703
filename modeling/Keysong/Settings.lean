import Keysong.Compiler
import Keysong.Decimal.Reading
import Keysong.Notice
import Keysong.Yaml.Reader

/-!
# Settings

What a settings file can say.  All sections and keys are optional, and most values are checked
only where they are used, so that a setting nobody needs does no harm.

## Main Definitions

* `Settings` — the settings, with their defaults
* `Settings.ofEntries` — the settings of a mapping
* `Settings.compiler` — the compiler that they describe
* `loadEntries` — the mapping that a settings file holds
-/

namespace Keysong

/-- The settings.  A value of any shape is kept until it is used. -/
structure Settings where
  deviceName : Value := .null
  channel : Int := 0
  spinWait : Bool := true
  bpm : Value := .null
  rests : Value := .text "standard"
  raiseMarker : Value := .text "'"
  lowerMarker : Value := .text ","
  caseDynamics : Bool := true
  filename : Value := .text "melody.mid"
  trackName : Value := .text "typetone"

/-- The integer that a value stands for.  A number loses what is behind its point. -/
def Value.toInteger : Value → Except Fault Int
  | .int n => .ok n
  | .bool b => .ok (Value.ofBool b)
  | .float x =>
    match (Decimal.Double.ofFloat x).size with
    | .undefined => .error .integerOfUndefined
    | .infinite => .error .integerOfInfinite
    | .finite _ _ => .ok ((Decimal.Double.ofFloat x).truncate.getD 0)
  | .text s => read (.text s) s.toList
  | .ragged points => read (.ragged points) (points.map Text.CodePoint.shownAs)
  | .bytes contents => read (.bytes contents) (contents.map asciiOf)
  | other => .error (.notAnInteger other)
where
  /-- The integer that a text stands for. -/
  read (value : Value) (text : List Char) : Except Fault Int :=
    match Decimal.readWhole text with
    | .ok n => .ok n
    | .error .malformed => .error (.malformedInteger 10 value)
    | .error (.tooLong digits) => .error (.tooManyDigits digits)
  /-- The character of a byte; bytes beyond 127 are no characters. -/
  asciiOf (b : UInt8) : Char := if b < 128 then Char.ofNat b.toNat else '\uFFFD'

namespace Settings

/-- Entries of a mapping, in order. -/
abbrev Entries : Type := List (Value × Value)

/-- The value under a name; one that does not count as switched on is an empty section.  The mapping
that holds the sections can be one of them. -/
def sectionOf (entries : Entries) (name : String) : Value :=
  match Value.find? entries name with
  | some (.loop true _) => .mapping entries
  | some v => if v.isTruthy then v else .mapping []
  | none => .mapping []

/-- The value under a key of a section, which has to be a mapping.  It can be the section itself, or
the mapping that holds the sections. -/
def setting (entries : Entries) (part : Value) (key : String) (default : Value) :
    Except Fault Value :=
  match part with
  | .mapping items =>
    match (Value.find? items key).getD default with
    | .loop true 0 => .ok part
    | .loop true _ => .ok (.mapping entries)
    | v => .ok v
  | other => .error (.sectionNotMapping other)

/-- The settings of a mapping.  They are looked at in the order in which they are listed. -/
def ofEntries (entries : Entries) : Except Fault Settings := do
  let defaults : Settings := {}
  let midi := sectionOf entries "midi"
  let tempo := sectionOf entries "tempo"
  let marks := sectionOf entries "notation"
  let file := sectionOf entries "export"
  let deviceName ← setting entries midi "device_name" defaults.deviceName
  let channel ← (← setting entries midi "channel" (.int defaults.channel)).toInteger
  let spinWait ← setting entries midi "spin_wait" (.bool defaults.spinWait)
  let bpm ← setting entries tempo "bpm" defaults.bpm
  let rests ← setting entries marks "rests" defaults.rests
  let raiseMarker ← setting entries marks "raise_marker" defaults.raiseMarker
  let lowerMarker ← setting entries marks "lower_marker" defaults.lowerMarker
  let caseDynamics ← setting entries marks "case_dynamics" (.bool defaults.caseDynamics)
  let filename ← setting entries file "filename" defaults.filename
  let trackName ← setting entries file "track_name" defaults.trackName
  return { deviceName, channel, spinWait := spinWait.isTruthy, bpm, rests, raiseMarker, lowerMarker
           caseDynamics := caseDynamics.isTruthy, filename, trackName }

/-- The compiler that the settings describe. -/
def compiler (s : Settings) : Except Fault Compiler := do
  let grammar ← Grammar.ofDraft
    { raiseMarker := s.raiseMarker, lowerMarker := s.lowerMarker, caseDynamics := s.caseDynamics }
  let rests ← RestTable.named s.rests
  Compiler.ofTables grammar .letters .standard rests

/-- The mapping that a settings file holds.  A file that is not there, or empty, holds none. -/
def loadEntries (path : String) (contents : Option String) : Except Fault Entries :=
  match contents with
  | none => .ok []
  | some text => do
    match ← Yaml.read text.toList with
    | .null => return []
    | .mapping entries => return entries
    | _ => throw (.settingsNotMapping path)

/-- What is reported while a settings file is read. -/
def loadNotices (path : String) (contents : Option String) : List Notice :=
  match contents with
  | none => [⟨.warning, "Config file " ++ path ++ " not found. Using defaults."⟩]
  | some _ => []

/-- The settings of a file. -/
def load (path : String) (contents : Option String) : Except Fault Settings := do
  ofEntries (← loadEntries path contents)

end Settings

end Keysong
