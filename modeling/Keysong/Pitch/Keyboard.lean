import Keysong.Pitch.Name
import Keysong.Table
import Keysong.Text.LetterCase

/-!
# Keyboards

A keyboard says which pitch a character stands for.  Capital and small letters stand for the same
pitch, so the table is kept and searched by small forms.

## Main Definitions

* `Keyboard` — a table from small forms to pitches
* `Keyboard.resolve` — the pitch of a character
* `Keyboard.ofNames` — a table from characters to pitch names, read in order
* `Keyboard.letters` — the twenty-six letters of a computer keyboard
-/

namespace Keysong

open Keysong.Text

/-- Pitches under the small forms of characters. -/
structure Keyboard where
  table : List (List Char × Pitch)
  deriving Repr, DecidableEq

namespace Keyboard

/-- The pitch under the small form of a text; only single characters are ever in the table. -/
def find? (k : Keyboard) (text : List Char) : Option Pitch := k.table.lookup (smallForm text)

/-- The pitch that a character stands for. -/
def resolve (k : Keyboard) (c : Char) : Option Pitch := k.table.lookup (small c)

/-- Adds what one key of a table of names stands for. -/
def addName (k : Keyboard) (entry : String × String) : Except Fault Keyboard :=
  match entry.1.toList with
  | [c] => do
    let pitch ← Pitch.ofName entry.2
    return ⟨Table.put (small c) pitch k.table⟩
  | _ => .error (.longKeyboardKey entry.1)

/-- The keyboard of a table of names.  A key that is there twice counts at its first place, with
its last name. -/
def ofNames (names : List (String × String)) : Except Fault Keyboard :=
  (Table.ofList names).foldlM addName ⟨[]⟩

/-- A row of keys that go up the natural notes, from a step above C0. -/
def row (keys : List Char) (lowest : Nat) : List (List Char × Pitch) :=
  keys.zipIdx.map fun (key, i) =>
    let step := lowest + i
    let letter : Letter :=
      match step % 7 with
      | 0 => .c | 1 => .d | 2 => .e | 3 => .f | 4 => .g | 5 => .a | _ => .b
    ([key], { letter, accidental := 0, octave := ↑(step / 7) })

/-- The letters of a computer keyboard: the upper row from C5, the home row from C4 and the lower
row from C3. -/
def letters : Keyboard :=
  ⟨row ['q', 'w', 'e', 'r', 't', 'y', 'u', 'i', 'o', 'p'] 35
    ++ row ['a', 's', 'd', 'f', 'g', 'h', 'j', 'k', 'l'] 28
    ++ row ['z', 'x', 'c', 'v', 'b', 'n', 'm'] 21⟩

end Keyboard

end Keysong
