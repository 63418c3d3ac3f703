/-!
# Code points

Most texts are rows of characters.  A text that was written with escapes can also hold halves of
surrogate pairs, which stand for nothing on their own: such a text is a row of code points, and no
string is equal to it.

## Main Definitions

* `CodePoint` — a character or a half
* `CodePoint.ofCode?` — the code point with a number
* `asCharacters?` — the characters of a text without halves
-/

namespace Keysong.Text

/-- One code point of a text. -/
inductive CodePoint where
  | char (c : Char)
  /-- One half of a surrogate pair, by its number. -/
  | half (code : Nat)
  deriving Repr, DecidableEq

namespace CodePoint

/-- Whether a number is that of a half. -/
def isHalfCode (code : Nat) : Bool := decide (0xD800 ≤ code) && decide (code ≤ 0xDFFF)

/-- The code point with a number; there is none from 0x110000 on. -/
def ofCode? (code : Nat) : Option CodePoint :=
  if isHalfCode code then some (.half code)
  else if code.isValidChar then some (.char (Char.ofNat code))
  else none

/-- The number of a code point. -/
def code : CodePoint → Nat
  | char c => c.toNat
  | half n => n

/-- The character of a code point, unless it is a half. -/
def char? : CodePoint → Option Char
  | char c => some c
  | half _ => none

/-- The character that stands for a code point where only characters can be shown. -/
def shownAs : CodePoint → Char
  | char c => c
  | half _ => '\uFFFD'

end CodePoint

/-- A row of characters as code points. -/
def codePoints (text : List Char) : List CodePoint := text.map .char

/-- A string is a text without halves. -/
instance : Coe String (List CodePoint) := ⟨fun s => codePoints s.toList⟩

/-- A text as a string, with something in the place of halves. -/
def shownText (text : List CodePoint) : String := String.ofList (text.map CodePoint.shownAs)

/-- The characters of a text without halves. -/
def asCharacters? (text : List CodePoint) : Option (List Char) := text.mapM CodePoint.char?

end Keysong.Text
