import Keysong.Fault
import Keysong.Text.Utf8

/-!
# Paths

Where a path leads, seen from a working directory that holds a few files and no directories.  What
lies outside of it is not known, except for the directories above it and some of the root, and for a
device that swallows everything.

## Main Definitions

* `FileName` — a row of code points
* `Path`, `Path.ofText` — the names between the slashes of a text
* `Spot` — a place that a path can lead to
* `Folder.find` — what is at the end of a path
* `Folder.target` — where a file is written to
* `Folder.destination` — the same for a value that is meant as the name of a file

## Design Notes

A path is followed name by name, so of several obstacles the first one on the way is met.  The last
name is not looked up for a file that is written: the file need not be there.
-/

namespace Keysong.Command

open Keysong.Text

/-- The name of a file or directory, which need not be a string. -/
abbrev FileName : Type := List CodePoint

/-- What can be in the way. -/
inductive Obstacle where
  | missing
  | notDirectory
  | directory
  | tooLong
  deriving Repr, DecidableEq

/-- The fault of an obstacle on a path. -/
def Obstacle.fault (path : List CodePoint) : Obstacle → Fault
  | .missing => .missingDirectory (shownText path)
  | .notDirectory => .fileNotDirectory (shownText path)
  | .directory => .directoryNotFile (shownText path)
  | .tooLong => .pathTooLong (shownText path)

/-- A path, cut at its slashes. -/
structure Path where
  /-- Whether it starts at the root. -/
  absolute : Bool
  names : List FileName
  /-- Whether a slash stands behind the last name. -/
  trailing : Bool
  deriving Repr, DecidableEq

namespace Path

/-- The most bytes of a name, and of a path. -/
def longestName : Nat := 255

@[inherit_doc longestName]
def longestPath : Nat := 4095

/-- The directories of the root, besides that of the devices. -/
def branches : List FileName := ["bin", "etc", "home", "lib", "proc", "root", "tmp", "usr", "var"]

/-- The mark between two names. -/
def slash : CodePoint := .char '/'

/-- The parts of a text between slashes. -/
def splitSlashes : List CodePoint → List FileName
  | [] => [[]]
  | p :: rest =>
    if p = slash then [] :: splitSlashes rest
    else
      match splitSlashes rest with
      | part :: parts => (p :: part) :: parts
      | [] => [[p]]

/-- The path that a text stands for.  An empty one leads nowhere. -/
def ofText (text : List CodePoint) : Except Obstacle Path :=
  if text.isEmpty then .error .missing
  else if longestPath < Utf8.byteCount text then .error .tooLong
  else
    .ok { absolute := text.head? == some slash
          names := (splitSlashes text).filter fun part => !part.isEmpty
          trailing := text.getLast? == some slash }

end Path

/-- A place that a path can lead to. -/
inductive Spot where
  /-- The working directory. -/
  | here
  /-- A directory above it. -/
  | above
  | root
  /-- A directory of the root. -/
  | branch
  /-- The directory of the devices. -/
  | devices
  /-- The device that swallows everything. -/
  | sink
  | file (name : FileName)
  deriving Repr, DecidableEq

/-- Whether a place is a directory. -/
def Spot.isDirectory : Spot → Bool
  | .sink | .file _ => false
  | _ => true

/-- The names of the files in a working directory. -/
structure Folder where
  files : List FileName

namespace Folder

/-- The names with a meaning of their own: this directory, the one above it, that of the devices, and
the device that swallows everything. -/
def hereName : FileName := "."

@[inherit_doc hereName]
def aboveName : FileName := ".."

@[inherit_doc hereName]
def devicesName : FileName := "dev"

@[inherit_doc hereName]
def sinkName : FileName := "null"

/-- The place with a name in a directory. -/
def entry (folder : Folder) (spot : Spot) (name : FileName) : Except Obstacle Spot :=
  if Path.longestName < Utf8.byteCount name then .error .tooLong
  else
    match spot with
    | .here => if folder.files.contains name then .ok (.file name) else .error .missing
    | .root =>
      if name = devicesName then .ok .devices
      else if Path.branches.contains name then .ok .branch
      else .error .missing
    | .devices => if name = sinkName then .ok .sink else .error .missing
    | _ => .error .missing

/-- One step on a path, which has to start from a directory. -/
def step (folder : Folder) (spot : Spot) (name : FileName) : Except Obstacle Spot :=
  if !spot.isDirectory then .error .notDirectory
  else if name = hereName then .ok spot
  else if name = aboveName then .ok (if spot = .here ∨ spot = .above then .above else .root)
  else folder.entry spot name

/-- Where the names of a path lead. -/
def follow (folder : Folder) (absolute : Bool) (names : List FileName) : Except Obstacle Spot :=
  names.foldlM folder.step (if absolute then .root else .here)

/-- What is at the end of a path. -/
def find (folder : Folder) (text : List CodePoint) : Except Obstacle Spot := do
  let path ← Path.ofText text
  let spot ← folder.follow path.absolute path.names
  if path.trailing && !spot.isDirectory then throw .notDirectory else return spot

/-- The name in the working directory under which a file with a path is written; nothing if it
goes elsewhere. -/
def target (folder : Folder) (text : List CodePoint) : Except Obstacle (Option FileName) := do
  let path ← Path.ofText text
  match path.names.getLast? with
  | none => throw .directory
  | some last =>
    let spot ← folder.follow path.absolute path.names.dropLast
    if !spot.isDirectory then throw .notDirectory
    else if last = hereName ∨ last = aboveName ∨ path.trailing then throw .directory
    else
      match folder.entry spot last with
      | .ok found => if found.isDirectory then throw .directory
      | .error .missing => pure ()
      | .error other => throw other
      return if spot = .here then some last else none

/-- Where a file with a text for its name is written to.  The text has to stand for bytes, and the
null character is in no name.  The fault names the first half that stands for no byte, and the halves
that follow it. -/
def namedTarget (folder : Folder) (text : List CodePoint) : Except Fault (Option FileName) :=
  let before := text.takeWhile Utf8.isEncodable
  let halves := (text.dropWhile Utf8.isEncodable).takeWhile fun p => p.char?.isNone
  match halves with
  | p :: rest => .error (.fileNameUnencodable p.code before.length (before.length + rest.length))
  | [] =>
    if text.contains (.char '\x00') then .error .fileNameWithNull
    else (folder.target text).mapError (Obstacle.fault text)

/-- Where a file is written that is given by the number it was opened under.  The three numbers that
are in use lead to no file; the first of them is open for reading only. -/
def numberedTarget (value : Value) (number : Int) : Except Fault (Option FileName) :=
  if number < -0x80000000 ∨ 0x7FFFFFFF < number then .error (.fileNameNotText value)
  else if number < 0 then .error .fileNumberNegative
  else if number = 1 ∨ number = 2 then .ok none
  else .error .fileNumberUnused

/-- Where a file is written that is named by a value: its name in the working directory, or nothing
if it goes elsewhere. -/
def destination (folder : Folder) (value : Value) : Except Fault (Option FileName) :=
  match value with
  | .null => .error .noFileName
  | .text s => folder.namedTarget s
  | .ragged points => folder.namedTarget points
  | .bytes contents => folder.namedTarget (Utf8.decode contents)
  | .int n => numberedTarget value n
  | .bool b => numberedTarget value (Value.ofBool b)
  | other => .error (.fileNameNotText other)

end Folder

end Keysong.Command
