import Keysong.Decimal.Reading
import Keysong.Notice
import Keysong.Fault

/-!
# Choosing an output device

Which of the outputs of a system is opened.  A requested name has to be among them; a single
output needs no choice; with several, the user is asked on the console until a line gives a number
in range or the console ends.

## Main Definitions

* `Desk` — the outputs of a system, what listing and opening them does, and the console
* `readChoice` — the number that a line of the console gives
* `Selection` — what was opened and what was printed and reported on the way
* `select` — the choice
-/

namespace Keysong.Device

open Keysong.Text

/-- The outputs of a system and the lines that wait on its console. -/
structure Desk where
  outputs : List String
  /-- Why the outputs cannot be listed, if so. -/
  listFault : Option String
  /-- Why no output can be opened, if so. -/
  openFault : Option String
  lines : List String

/-- What was chosen. -/
structure Selection where
  /-- The output that was tried. -/
  attempted : Option String
  /-- The output that was opened. -/
  opened : Option String
  printed : String
  notices : List Notice
  deriving Repr, DecidableEq

/-- The number that a line of the console gives, if it is in range. -/
def readChoice (count : Nat) (line : String) : Option Nat :=
  match Decimal.readWhole line.toList with
  | .ok n => if 1 ≤ n ∧ n ≤ count then some n.toNat else none
  | .error _ => none

/-- The first choice in range, and what is printed until it is made.  Each line is prompted for,
and each refused line is answered. -/
def firstChoice (count : Nat) : List String → Option Nat × String
  | [] => (none, "Select a device (1-" ++ toString count ++ "): ")
  | line :: rest =>
    let prompt := "Select a device (1-" ++ toString count ++ "): "
    match readChoice count line with
    | some n => (some n, prompt)
    | none =>
      let (choice, printed) := firstChoice count rest
      (choice, prompt ++ "Enter a number between 1 and " ++ toString count ++ ".\n" ++ printed)

/-- The numbered list that is printed before the first prompt. -/
def menu (outputs : List String) : String :=
  "\nAvailable MIDI output devices:\n\n"
    ++ String.join (outputs.zipIdx.map fun (name, i) =>
        "  " ++ toString (i + 1) ++ ". " ++ name ++ "\n")
    ++ "\n"

/-- What is printed behind a choice. -/
def tip (name : String) : String :=
  "\nTip: To skip this prompt, pass the device name directly:\n\n"
    ++ "  python -m typetone play \"...\" --device \"" ++ name ++ "\"\n\n"

/-- The names of outputs as messages show them. -/
def listed (outputs : List String) : String := bracketed "[" "]" (outputs.map quoted)

/-- The report that nothing could be opened. -/
def failed (reason : String) : Notice := ⟨.error, "Failed to open MIDI output: " ++ reason⟩

/-- Which output to open, what is printed, and what is reported. -/
def choose (outputs : List String) (requested : Value) (interactive : Bool)
    (lines : List String) : Option String × String × List Notice :=
  match requested, outputs with
  | _, [] => (none, "", [⟨.error, "No MIDI output devices found."⟩])
  | .null, [only] =>
    (some only, "", [⟨.info, "One MIDI output found - using '" ++ only ++ "'"⟩])
  | .null, outputs =>
    if interactive then
      let (choice, printed) := firstChoice outputs.length lines
      match choice.bind fun n => outputs[n - 1]? with
      | some name => (some name, menu outputs ++ printed ++ tip name, [])
      | none => (none, menu outputs ++ printed, [failed "EOF when reading a line"])
    else
      (none, "",
        [⟨.error, "Several MIDI outputs found and no device name given: " ++ listed outputs⟩])
  | requested, outputs =>
    match requested with
    | .text name =>
      if outputs.contains name then (some name, "", [])
      else (none, "", [missing name outputs])
    | other =>
      if other.isWritable then (none, "", [missing other.display outputs])
      else (none, "", [failed (Fault.message .unwritableInteger)])
where
  missing (name : List CodePoint) (outputs : List String) : Notice :=
    ⟨.error, "MIDI output device '" ++ name ++ "' not found. Available devices: " ++
      listed outputs⟩

/-- Chooses an output and opens it. -/
def select (desk : Desk) (requested : Value) (interactive : Bool) : Selection :=
  match desk.listFault with
  | some reason => { attempted := none, opened := none, printed := "", notices := [failed reason] }
  | none =>
    let found : Notice := ⟨.info, "Available MIDI outputs: " ++ listed desk.outputs⟩
    let (choice, printed, notices) := choose desk.outputs requested interactive desk.lines
    match choice, desk.openFault with
    | none, _ => { attempted := none, opened := none, printed, notices := found :: notices }
    | some name, some reason =>
      { attempted := some name, opened := none, printed
        notices := found :: notices ++ [failed reason] }
    | some name, none =>
      { attempted := some name, opened := some name, printed
        notices := found :: notices ++ [⟨.info, "Opened MIDI output: " ++ name⟩] }

end Keysong.Device
