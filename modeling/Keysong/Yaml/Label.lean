import Keysong.Yaml.Scalar

/-!
# Labels

What is written in front of a node, or in front of a document, to say something about it: anchors
and aliases, tags, and directives.

## Main Definitions

* `name` — the name of an anchor or of an alias
* `WrittenTag`, `writtenTag` — a tag as it is written
* `Directive`, `directive` — a line in front of a document

## Design Notes

A tag is a suffix behind a handle, and only the directives of a document tell what a handle stands
for.  So a tag is kept in the two parts that it is written in.
-/

namespace Keysong.Yaml

/-- Whether a character can stand in a name. -/
def isNameCharacter (c : Char) : Bool := c.isAlphanum || c == '-' || c == '_'

/-- Whether a text is at its end, at a space or at the end of a line. -/
def atSpace : List Char → Bool
  | [] => true
  | c :: _ => c == ' ' || isBreak c

/-- Drops the spaces in front of a text. -/
def behindSpaces (text : List Char) : List Char := text.dropWhile (· == ' ')

/-- Whether the name of an anchor or of an alias can end in front of a text. -/
def endsName (text : List Char) : Bool :=
  match text with
  | [] => true
  | c :: _ => atGap text || ['?', ':', ',', ']', '\x7d', '%', '@', Char.ofNat 96].contains c

/-- Reads the name of an anchor or of an alias. -/
def name (text : List Char) : Except Fault (Read Char) :=
  let name := text.takeWhile isNameCharacter
  let rest := text.dropWhile isNameCharacter
  if name.isEmpty || !endsName rest then
    .error (malformed "expected alphabetic or numeric character")
  else .ok ⟨name, rest⟩

/-! ### Tags -/

/-- Whether a character can stand in the suffix of a tag. -/
def isSuffixCharacter (c : Char) : Bool :=
  c.isAlphanum || "-;/?:@&=+$,_.!~*'()[]%".toList.contains c

/-- The bytes of a row of escapes, each of them a percent sign and two hexadecimal digits. -/
def escapedBytes : List Char → Except Fault (Read UInt8)
  | '%' :: a :: b :: rest =>
    match hexDigit? a, hexDigit? b with
    | some high, some low => do
      let more ← escapedBytes rest
      return ⟨UInt8.ofNat (16 * high + low) :: more.text, more.rest⟩
    | _, _ => .error (malformed "expected URI escape sequence of 2 hexadecimal numbers")
  | '%' :: _ => .error (malformed "expected URI escape sequence of 2 hexadecimal numbers")
  | text => .ok ⟨[], text⟩

/-- Reads the characters of a suffix.  The bytes of escapes that follow each other have to be the
encoding of characters. -/
def suffixCharacters : Nat → List Char → Except Fault (Read Char)
  | 0, text => .ok ⟨[], text⟩
  | fuel + 1, text =>
    match text with
    | [] => .ok ⟨[], []⟩
    | '%' :: _ => do
      let escapes ← escapedBytes text
      match String.fromUTF8? ⟨escapes.text.toArray⟩ with
      | some characters =>
        let more ← suffixCharacters fuel escapes.rest
        return ⟨characters.toList ++ more.text, more.rest⟩
      | none => throw (malformed "the escapes of a tag are no characters")
    | c :: rest =>
      if isSuffixCharacter c then do
        let more ← suffixCharacters fuel rest
        return ⟨c :: more.text, more.rest⟩
      else .ok ⟨[], text⟩

/-- Reads a suffix, which is not empty. -/
def suffix (text : List Char) : Except Fault (Read Char) := do
  let read ← suffixCharacters text.length text
  if read.text.isEmpty then throw (malformed "expected URI") else return read

/-- Reads a handle: an exclamation mark, or a name between two of them. -/
def handle (text : List Char) : Except Fault (Read Char) :=
  match text with
  | '!' :: rest =>
    if rest.head? == some ' ' then .ok ⟨['!'], rest⟩
    else
      match rest.dropWhile isNameCharacter with
      | '!' :: behind => .ok ⟨'!' :: (rest.takeWhile isNameCharacter ++ ['!']), behind⟩
      | _ => .error (malformed "expected '!'")
  | _ => .error (malformed "expected '!'")

/-- A tag as it is written: a suffix behind a handle, or a tag that stands for itself. -/
structure WrittenTag where
  handle : Option String
  suffix : String
  deriving Repr, DecidableEq

/-- A tag and the text behind it, which has to start with a space or a new line. -/
def closeTag (handle : Option (List Char)) (suffix rest : List Char) :
    Except Fault (WrittenTag × List Char) :=
  if atSpace rest then .ok (⟨handle.map String.ofList, String.ofList suffix⟩, rest)
  else .error (malformed "expected ' ' behind a tag")

/-- Reads a tag behind its exclamation mark. -/
def writtenTag (text : List Char) : Except Fault (WrittenTag × List Char) :=
  match text with
  | '<' :: rest => do
    let read ← suffix rest
    match read.rest with
    | '>' :: rest => closeTag none read.text rest
    | _ => throw (malformed "expected '>'")
  | _ =>
    if atGap text then closeTag none ['!'] text
    else do
      let word := text.takeWhile fun c => !(c == ' ' || isBreak c)
      let handle ← if word.contains '!' then handle ('!' :: text) else .ok ⟨['!'], text⟩
      let read ← suffix handle.rest
      closeTag (some handle.text) read.text read.rest

/-! ### Directives -/

/-- What a line in front of a document says. -/
inductive Directive where
  /-- The version of the language; only its first number matters. -/
  | version (major : Nat)
  /-- What a handle stands for. -/
  | shorthand (handle meaning : String)
  /-- Something that is not known, and does not matter. -/
  | unknown
  deriving Repr, DecidableEq

/-- Reads a number of a version, which has the same limit as all integers. -/
def versionNumber (text : List Char) : Except Fault (Nat × List Char) :=
  let digits := text.takeWhile Char.isDigit
  if digits.isEmpty then .error (malformed "expected a digit")
  else if Decimal.digitLimit < digits.length then .error (.tooManyDigits digits.length)
  else .ok (digits.foldl (fun n c => 10 * n + (c.toNat - 48)) 0, text.dropWhile Char.isDigit)

/-- Reads the two numbers of a version. -/
def version (text : List Char) : Except Fault (Directive × List Char) := do
  let (major, rest) ← versionNumber (behindSpaces text)
  match rest with
  | '.' :: rest =>
    let (_, rest) ← versionNumber rest
    if atSpace rest then return (.version major, rest)
    else throw (malformed "expected a digit or ' '")
  | _ => throw (malformed "expected a digit or '.'")

/-- Reads a handle and what it stands for. -/
def shorthand (text : List Char) : Except Fault (Directive × List Char) := do
  let handle ← handle (behindSpaces text)
  if handle.rest.head? != some ' ' then throw (malformed "expected ' '")
  else
    let meaning ← suffix (behindSpaces handle.rest)
    if atSpace meaning.rest then
      return (.shorthand (String.ofList handle.text) (String.ofList meaning.text), meaning.rest)
    else throw (malformed "expected ' '")

/-- What is left of a line behind a directive: at most a comment. -/
def behindDirective (text : List Char) : Except Fault (List Char) :=
  let text := behindSpaces text
  let text := if text.head? == some '#' then text.dropWhile fun c => !isBreak c else text
  match text, lineBreak? text with
  | [], _ => .ok []
  | _, some (_, rest) => .ok rest
  | _, none => .error (malformed "expected a comment or a line break")

/-- Reads a directive behind its percent sign, with the end of its line. -/
def directive (text : List Char) : Except Fault (Directive × List Char) := do
  let name := text.takeWhile isNameCharacter
  let rest := text.dropWhile isNameCharacter
  if name.isEmpty || !atSpace rest then
    throw (malformed "expected alphabetic or numeric character")
  else
    let (directive, rest) ←
      if name == ['Y', 'A', 'M', 'L'] then version rest
      else if name == ['T', 'A', 'G'] then shorthand rest
      else pure (.unknown, rest.dropWhile fun c => !isBreak c)
    return (directive, ← behindDirective rest)

end Keysong.Yaml
