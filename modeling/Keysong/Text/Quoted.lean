import Keysong.Text.CodePoint
import Keysong.Text.Printable

/-!
# Quoted text

How a message shows a piece of text: between quotation marks, with everything that would not be
visible written as an escape.  Single marks are used unless the text holds a single mark and no
double one.

## Main Definitions

* `Quoted.escape` — one character between given marks
* `quotedPoints`, `quoted` — a whole text
-/

namespace Keysong.Text

namespace Quoted

/-- One hexadecimal digit, small letters from ten on. -/
def hexDigit (d : Nat) : Char :=
  if d < 10 then Char.ofNat (48 + d) else Char.ofNat (87 + d)

/-- A number in exactly `width` hexadecimal digits. -/
def hex : Nat → Nat → List Char
  | 0, _ => []
  | width + 1, n => hex width (n / 16) ++ [hexDigit (n % 16)]

@[simp] theorem length_hex (width n : Nat) : (hex width n).length = width := by
  induction width generalizing n with
  | zero => rfl
  | succ w ih => simp [hex, ih]

/-- A code point by its number, in the shortest of three widths. -/
def byNumber (code : Nat) : List Char :=
  if code ≤ 0xFF then '\\' :: 'x' :: hex 2 code
  else if code ≤ 0xFFFF then '\\' :: 'u' :: hex 4 code
  else '\\' :: 'U' :: hex 8 code

/-- One character of a text that stands between two copies of `mark`. -/
def escape (mark c : Char) : List Char :=
  if c = mark ∨ c = '\\' then ['\\', c]
  else if c = '\n' then ['\\', 'n']
  else if c = '\r' then ['\\', 'r']
  else if c = '\t' then ['\\', 't']
  else if isPrintable c then [c]
  else byNumber c.toNat

/-- One code point of a text that stands between two copies of `mark`.  Halves are never shown as
they are. -/
def escapePoint (mark : Char) : CodePoint → List Char
  | .char c => escape mark c
  | .half code => byNumber code

/-- The mark that a text is put between: double only if that avoids an escape. -/
def markFor (text : List CodePoint) : Char :=
  if .char '\'' ∈ text ∧ .char '"' ∉ text then '"' else '\''

end Quoted

/-- A text between quotation marks, with everything escaped that would not be visible. -/
def quotedPoints (text : List CodePoint) : String :=
  let mark := Quoted.markFor text
  String.ofList (mark :: (text.flatMap (Quoted.escapePoint mark) ++ [mark]))

/-- A string between quotation marks, with everything escaped that would not be visible. -/
def quoted (text : String) : String := quotedPoints (codePoints text.toList)

/-- Items between brackets, separated by commas. -/
def bracketed (opening closing : String) (items : List String) : String :=
  opening ++ String.intercalate ", " items ++ closing

end Keysong.Text
