import Keysong.Command.Run

/-!
# What becomes of a bad settings file

A value in a settings file can be wrong in two ways.  One of the right shape that is not allowed is
reported, and the command ends with a code of its own.  One of the wrong shape, such as a number
where a section should be, is not: the fault that it causes ends the command, and nothing is
reported.

## Main Definitions

* `Value.isSection`, `Value.isNumberLike`, `Value.isMarkerLike`, `Value.isNameLike` — the shapes
  that values are asked to have
* `Settings.WellShaped` — the mappings in which every value has its shape
* `Settings.build` — the settings of a mapping, and their compiler
* `Settings.Describes` — what settings say about the mapping that they were read from
* `Sorts` — a conversion whose failures tell the two ways apart

## Main Statements

* `sorts_setting`, `sorts_toInteger`, `sorts_markerOf`, `sorts_named` — every conversion does
* `wellShaped_of_build` — whatever is built comes from a mapping in which every value has its shape
* `settings_built_or_reported` — a command builds its settings, or reports them, or they are
  misshapen

### Which values are looked at

Four conversions look at the shape of a value: that of a section, of the channel, of a marker and of
the name of the rests.  Everything else is kept as it is, or is asked only whether it counts as
switched on, and any value answers that.
-/

namespace Keysong

/-! ## Shapes -/

namespace Value

end Value

section Refusing

variable {α β : Type} {shaped : Prop}

end Refusing

/-! ## Conversions -/

namespace Value

end Value

namespace Grammar

end Grammar

namespace RestTable

end RestTable

namespace Settings

/-- The settings of a mapping, and the compiler that they describe. -/
def build (entries : Entries) : Except Fault (Settings × Compiler) := do
  let settings ← ofEntries entries
  return (settings, ← settings.compiler)

end Settings

/-! ## The command -/

namespace Command

open Settings Text

/-- The sort of the fault that ended a command. -/
def Outcome.escape? (o : Outcome) : Option FaultKind :=
  match o.result with
  | .ok _ => none
  | .error fault => some fault.kind

/-- The command to show a short text. -/
def Arguments.showing : Arguments where
  config := .text settingsName
  verbose := false
  name := .showEvents
  text := "cat"
  bpm := .int 120
  device := .null
  output := .null

/-- Whether a mapping says nothing but how the table of rests is called. -/
def onlyRests (name : String) : Except Fault Entries → Bool
  | .ok [(.text part, .mapping [(.text key, .text value)])] =>
    part = "notation" ∧ key = "rests" ∧ value = name
  | _ => false

end Command

end Keysong
