import Keysong.Grammar
import Keysong.Notice

/-!
# Tokens

A text is a row of words and chord groups.  Blanks separate words; a group runs from an opening
marker to the next closing one and is a row of member words.  Groups do not nest: inside a group
an opening marker is an ordinary character, and so is a closing marker outside of one.

## Main Definitions

* `Token` — a word or a group of words
* `Reader` — where the reading of a text stands: outside or inside a group, amid a word
* `Reader.step`, `Reader.emit`, `Reader.finish` — what one character and the end of a text do
* `tokens` — the tokens of a text
* `Token.render` — a text that a token is read from

## Design Notes

The reader is a machine with one state and an output for each character, so what is read from a
text falls apart at every position: the output of the first part, and the output of the rest from
the state that the first part leads to.
-/

namespace Keysong

open Keysong.Text

/-- A word, or the words of a chord group. -/
inductive Token where
  | word (letters : List Char)
  | group (members : List (List Char))
  deriving Repr, DecidableEq

/-- Where the reading of a text stands, with the word read so far. -/
inductive Reader where
  | outside (word : List Char)
  | inside (members : List (List Char)) (word : List Char)
  deriving Repr, DecidableEq

namespace Reader

/-- A word, unless it is empty. -/
def unlessEmpty (word : List Char) : List (List Char) := if word = [] then [] else [word]

/-- The state behind one more character. -/
def step (g : Grammar) (r : Reader) (c : Char) : Reader :=
  match r with
  | outside word =>
    if c = g.groupOpen then inside [] []
    else if isBlank c then outside []
    else outside (word ++ [c])
  | inside members word =>
    if c = g.groupClose then outside []
    else if isBlank c then inside (members ++ unlessEmpty word) []
    else inside members (word ++ [c])

/-- The tokens that end at one more character. -/
def emit (g : Grammar) (r : Reader) (c : Char) : List Token :=
  match r with
  | outside word =>
    if c = g.groupOpen ∨ isBlank c = true then (unlessEmpty word).map Token.word else []
  | inside members word =>
    if c = g.groupClose then [.group (members ++ unlessEmpty word)] else []

/-- The tokens that end with the text.  A group that is still open is closed. -/
def finish : Reader → List Token
  | outside word => (unlessEmpty word).map Token.word
  | inside members word => [.group (members ++ unlessEmpty word)]

/-- The state behind a text. -/
def after (g : Grammar) (r : Reader) (text : List Char) : Reader := text.foldl (step g) r

/-- The tokens that end within a text. -/
def emitted (g : Grammar) : Reader → List Char → List Token
  | _, [] => []
  | r, c :: rest => r.emit g c ++ emitted g (r.step g c) rest

/-- What is reported at the end of a text. -/
def notices : Reader → List Notice
  | outside _ => []
  | inside members word =>
    [⟨.warning, "Unterminated chord group at end of input, closing it after " ++
      toString (members ++ unlessEmpty word).length ++ " members"⟩]

@[simp] theorem after_nil (g : Grammar) (r : Reader) : r.after g [] = r := rfl

theorem after_append (g : Grammar) (r : Reader) (s t : List Char) :
    r.after g (s ++ t) = (r.after g s).after g t := by
  simp [after, List.foldl_append]

@[simp] theorem emitted_nil (g : Grammar) (r : Reader) : r.emitted g [] = [] := rfl

theorem emitted_append (g : Grammar) (r : Reader) (s t : List Char) :
    r.emitted g (s ++ t) = r.emitted g s ++ (r.after g s).emitted g t := by
  induction s generalizing r with
  | nil => rfl
  | cons c rest ih => simp [emitted, after, ih]

end Reader

/-- The state behind a whole text. -/
def readerAfter (g : Grammar) (text : List Char) : Reader := (Reader.outside []).after g text

/-- The tokens of a text. -/
def tokens (g : Grammar) (text : List Char) : List Token :=
  (Reader.outside []).emitted g text ++ (readerAfter g text).finish

/-- What is reported while a text is split into tokens. -/
def tokenNotices (g : Grammar) (text : List Char) : List Notice := (readerAfter g text).notices

namespace Token

/-- A text that a token is read from. -/
def render (g : Grammar) : Token → List Char
  | word letters => letters
  | group members => g.groupOpen :: (List.intercalate [' '] members ++ [g.groupClose])

end Token

/-- A text that a row of tokens is read from. -/
def renderTokens (g : Grammar) (row : List Token) : List Char :=
  List.intercalate [' '] (row.map (Token.render g))

end Keysong
