import Keysong.Fault
import Keysong.NoteValue
import Keysong.Table

/-!
# Rests

Which characters are rests, and how long each of them is.

## Main Definitions

* `RestTable` — a table from characters to note values
* `RestTable.standard`, `RestTable.extended` — the two tables that have a name
* `RestTable.ofPairs`, `RestTable.named` — a table from pairs, and from a name
-/

namespace Keysong

open NoteValue

/-- The characters that are rests. -/
structure RestTable where
  table : List (Char × NoteValue)
  deriving Repr, DecidableEq

namespace RestTable

/-- The length of a rest; nothing for a character that is none. -/
def find? (r : RestTable) (c : Char) : Option NoteValue := r.table.lookup c

/-- Dashes are half notes, and so on down to the exclamation mark. -/
def standard : RestTable :=
  ⟨[('-', half), ('\u2013', half), ('\u2014', half), ('.', quarter), ('&', eighth),
    ('?', sixteenth), ('!', thirtySecond)]⟩

/-- The standard table with nine more characters. -/
def extended : RestTable :=
  ⟨standard.table ++
    [('/', half), ('"', quarter), ('%', quarter), ('$', eighth), ('#', eighth), ('*', sixteenth),
      ('=', sixteenth), ('+', sixteenth), ('^', thirtySecond)]⟩

/-- The lengths that a table gives, each of them once. -/
def durations (r : RestTable) : List NoteValue := (r.table.map (·.2)).eraseDups

/-- Adds one pair, whose key has to be a single character. -/
def addPair (r : RestTable) (entry : String × NoteValue) : Except Fault RestTable :=
  match entry.1.toList with
  | [c] => .ok ⟨Table.put c entry.2 r.table⟩
  | _ => .error (.longRestKey entry.1)

/-- The table of a list of pairs.  A key that is there twice counts at its first place, with its
last length. -/
def ofPairs (pairs : List (String × NoteValue)) : Except Fault RestTable :=
  (Table.ofList pairs).foldlM addPair ⟨[]⟩

/-- The table with a name. -/
def named (name : Value) : Except Fault RestTable :=
  match name with
  | .text "standard" => .ok standard
  | .text "extended" => .ok extended
  | .list _ | .set _ | .mapping _ | .loop .. => .error (.restTableNotName name)
  | _ => .error (.unknownRestTable name)

end RestTable

end Keysong
