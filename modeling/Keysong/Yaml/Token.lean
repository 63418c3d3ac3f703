import Keysong.Yaml.Label

/-!
# Tokens of a settings file

A settings file is cut into scalars and marks.  Indentation becomes marks as well: a line that is
indented deeper than the collection around it opens a new one, and a line that is indented less
closes those it leaves.

## Main Definitions

* `Token` — a scalar or a mark
* `Scanner` — where the scanning of a file stands
* `Scanner.next` — one more token
* `tokensOf` — the tokens of a file

## Design Notes

Whether a scalar is a key is known only at the colon behind it.  The scanner remembers for every
bracket level where a key could have started, and puts its mark there when the colon is found.  A
key has to end on its line, within 1024 characters.

A file that cannot be scanned to its end still has tokens: those that are settled before the fault,
and the fault behind them.  So of a fault in the order of the tokens and one in the text, the one
that is met first is reported.
-/

namespace Keysong.Yaml

/-- A scalar or a mark. -/
inductive Token where
  | documentStart
  | documentEnd
  | blockSequence
  | blockMapping
  | blockEnd
  | flowSequence
  | flowSequenceEnd
  | flowMapping
  | flowMappingEnd
  /-- The dash before an item. -/
  | item
  | comma
  | key
  | value
  | directive (directive : Directive)
  /-- A name given to the node behind it. -/
  | anchor (name : String)
  /-- The node that was given a name. -/
  | alias (name : String)
  | tag (tag : WrittenTag)
  | scalar (text : List Text.CodePoint) (isPlain : Bool)
  /-- A fault in the text. -/
  | broken (fault : Fault)
  deriving Repr

/-- A place where a key could have started. -/
structure KeyPlace where
  /-- How many tokens come before it. -/
  tokens : Nat
  /-- Whether it has to be a key, because a mapping is open at its column. -/
  required : Bool
  index : Nat
  line : Nat
  column : Nat

/-- Where the scanning of a file stands. -/
structure Scanner where
  rest : List Char
  index : Nat
  line : Nat
  column : Nat
  /-- The brackets that are open. -/
  brackets : Nat
  /-- The columns of the open block collections, innermost first. -/
  indents : List Int
  /-- Whether a key could start here. -/
  keyAllowed : Bool
  /-- For each bracket level, innermost first, where a key could have started. -/
  places : List (Option KeyPlace)
  tokens : List Token

namespace Scanner

/-- The start of a file. -/
def start (text : List Char) : Scanner :=
  { rest := text, index := 0, line := 0, column := 0, brackets := 0, indents := []
    keyAllowed := true, places := [none], tokens := [] }

/-- The column of the innermost block collection. -/
def indent (s : Scanner) : Int := s.indents.headD (-1)

/-- Adds tokens. -/
def push (s : Scanner) (tokens : List Token) : Scanner := { s with tokens := s.tokens ++ tokens }

/-- The position behind a piece of text. -/
def position : List Char → Nat × Nat → Nat × Nat
  | [], p => p
  | '\r' :: '\n' :: rest, (line, _) => position rest (line + 1, 0)
  | c :: rest, (line, column) =>
    if isBreak c then position rest (line + 1, 0)
    else position rest (line, if c == '\uFEFF' then column else column + 1)

/-- Goes on to a later part of the text. -/
def moveTo (s : Scanner) (rest : List Char) : Scanner :=
  let count := s.rest.length - rest.length
  let (line, column) := position (s.rest.take count) (s.line, s.column)
  { s with rest, index := s.index + count, line, column }

/-- Goes on by a number of characters. -/
def forward (s : Scanner) (count : Nat) : Scanner := s.moveTo (s.rest.drop count)

/-- Skips spaces, comments and line breaks. -/
def skipGap : Nat → Scanner → Scanner
  | 0, s => s
  | fuel + 1, s =>
    let text := if s.index == 0 && s.rest.head? == some '\uFEFF' then s.rest.drop 1 else s.rest
    let text := text.dropWhile (· == ' ')
    let text := if text.head? == some '#' then text.dropWhile fun c => !isBreak c else text
    match lineBreak? text with
    | none => s.moveTo text
    | some (_, rest) =>
      let s := s.moveTo rest
      skipGap fuel { s with keyAllowed := s.keyAllowed || s.brackets == 0 }

/-- Whether a place lies too far back for a key. -/
def isStale (s : Scanner) (p : KeyPlace) : Bool := p.line != s.line || 1024 < s.index - p.index

/-- How many tokens are final, because no key can be put in front of them any more. -/
def settled (s : Scanner) : Nat :=
  let places := (s.places.filterMap id).filter fun p => !s.isStale p
  (places.map KeyPlace.tokens).foldl min s.tokens.length

/-- Forgets a place for a key; it is a fault if there has to be a key. -/
def dropPlace (place : Option KeyPlace) : Except Fault (Option KeyPlace) :=
  match place with
  | some p => if p.required then .error (malformed "could not find expected ':'") else .ok none
  | none => .ok none

/-- Forgets the places that lie too far back. -/
def dropStale (s : Scanner) : Except Fault Scanner := do
  let places ← s.places.mapM fun place =>
    match place with
    | some p => if s.isStale p then dropPlace place else .ok place
    | none => .ok none
  return { s with places }

/-- Forgets the place on the innermost level. -/
def forget (s : Scanner) : Except Fault Scanner :=
  match s.places with
  | [] => .ok s
  | place :: outer => do return { s with places := (← dropPlace place) :: outer }

/-- Closes the block collections that a column leaves. -/
def unwind (column : Int) : List Int → List Int × List Token
  | [] => ([], [])
  | inner :: outer =>
    if column < inner then
      let (indents, tokens) := unwind column outer
      (indents, .blockEnd :: tokens)
    else (inner :: outer, [])

/-- Closes the block collections that a column leaves, outside of brackets. -/
def leave (s : Scanner) (column : Int) : Scanner :=
  if s.brackets != 0 then s
  else
    let (indents, tokens) := unwind column s.indents
    { s with indents }.push tokens

/-- Remembers that a key could start here. -/
def remember (s : Scanner) : Except Fault Scanner := do
  let required := s.brackets == 0 && s.indent == s.column
  if s.keyAllowed then
    let s ← s.forget
    let place : KeyPlace := ⟨s.tokens.length, required, s.index, s.line, s.column⟩
    return { s with places := some place :: s.places.drop 1 }
  else return s

/-- Opens a block collection at a column, unless one is open there. -/
def openBlock (s : Scanner) (column before : Nat) (token : Token) : Scanner :=
  if s.indent < column then
    { s with indents := (column : Int) :: s.indents
             tokens := s.tokens.take before ++ token :: s.tokens.drop before }
  else s

/-- A mark of one character. -/
def mark (s : Scanner) (token : Token) (keyAllowed : Bool) : Scanner :=
  { (s.forward 1).push [token] with keyAllowed }

/-- An opening bracket. -/
def openBracket (s : Scanner) (token : Token) : Except Fault Scanner := do
  let s ← s.remember
  let s := { s with brackets := s.brackets + 1, places := none :: s.places }
  return s.mark token true

/-- A closing bracket. -/
def closeBracket (s : Scanner) (token : Token) : Except Fault Scanner := do
  let s ← s.forget
  if s.brackets == 0 then throw (malformed "found a bracket that was not opened")
  else
    let s := { s with brackets := s.brackets - 1, places := s.places.drop 1 }
    return s.mark token false

/-- A comma between the items of a flow collection. -/
def comma (s : Scanner) : Except Fault Scanner := do
  let s ← s.forget
  if s.brackets == 0 then throw (malformed "expected <block end>, but found ','")
  else return s.mark .comma true

/-- The dash before an item of a block sequence.  Between brackets it opens nothing. -/
def dash (s : Scanner) : Except Fault Scanner := do
  if s.brackets == 0 && !s.keyAllowed then throw (malformed "sequence entries are not allowed here")
  else
    let s := if s.brackets == 0 then s.openBlock s.column s.tokens.length .blockSequence else s
    let s ← s.forget
    return s.mark .item true

/-- The question mark before a key. -/
def explicitKey (s : Scanner) : Except Fault Scanner := do
  if s.brackets == 0 && !s.keyAllowed then throw (malformed "mapping keys are not allowed here")
  else
    let s := if s.brackets == 0 then s.openBlock s.column s.tokens.length .blockMapping else s
    let s ← s.forget
    return s.mark .key (s.brackets == 0)

/-- The colon behind a key. -/
def colon (s : Scanner) : Except Fault Scanner := do
  match s.places.headD none with
  | some place =>
    let s := { s with
      places := none :: s.places.drop 1
      tokens := s.tokens.take place.tokens ++ Token.key :: s.tokens.drop place.tokens }
    let s := if s.brackets == 0 then s.openBlock place.column place.tokens .blockMapping else s
    return s.mark .value false
  | none =>
    if s.brackets == 0 && !s.keyAllowed then
      throw (malformed "mapping values are not allowed here")
    else
      let s := if s.brackets == 0 then s.openBlock s.column s.tokens.length .blockMapping else s
      let s ← s.forget
      return s.mark .value (s.brackets == 0)

/-- A line that separates documents. -/
def separator (s : Scanner) (token : Token) : Except Fault Scanner := do
  let s ← (s.leave (-1)).forget
  return { (s.forward 3).push [token] with keyAllowed := false }

/-- A directive in front of a document. -/
def directive (s : Scanner) (text : List Char) : Except Fault Scanner := do
  let s ← (s.leave (-1)).forget
  let (directive, rest) ← Yaml.directive text
  return { (s.moveTo rest).push [.directive directive] with keyAllowed := false }

/-- A label in front of a node, which can be in front of a key as well. -/
def label (s : Scanner) (read : Except Fault (Token × List Char)) : Except Fault Scanner := do
  let s ← s.remember
  let (token, rest) ← read
  return { (s.moveTo rest).push [token] with keyAllowed := false }

/-- A scalar that was read. -/
def scalar (s : Scanner) (text : List Text.CodePoint) (rest : List Char)
    (isPlain keyAllowed : Bool) : Scanner :=
  { (s.moveTo rest).push [.scalar text isPlain] with keyAllowed }

/-- A scalar without escapes that was read. -/
def characters (s : Scanner) (read : Read Char) (isPlain keyAllowed : Bool) : Scanner :=
  s.scalar (Text.codePoints read.text) read.rest isPlain keyAllowed

/-- Whether a plain scalar can start with a text. -/
def startsPlain (s : Scanner) (text : List Char) : Bool :=
  match text with
  | [] => false
  | c :: rest =>
    let marks := ['-', '?', ':', ',', '[', ']', '\x7b', '\x7d', '#', '&', '*', '!', '|', '>', '\'',
      '"', '%', '@', Char.ofNat 96]
    !(atGap text || marks.contains c)
      || (!atGap rest && (c == '-' || (s.brackets == 0 && (c == '?' || c == ':'))))

/-- One more token, or the end of the file; the flag tells whether there is more. -/
def next (s : Scanner) : Except Fault (Scanner × Bool) := do
  let s ← (s.skipGap (s.rest.length + 1)).dropStale
  let s := s.leave s.column
  match s.rest with
  | [] =>
    return (← (s.leave (-1)).forget, false)
  | c :: rest =>
    if s.column == 0 && c == '%' then more (← s.directive rest)
    else if s.column == 0 && c == '-' && atSeparator s.rest then
      more (← s.separator .documentStart)
    else if s.column == 0 && c == '.' && atSeparator s.rest then
      more (← s.separator .documentEnd)
    else if c == '[' then more (← s.openBracket .flowSequence)
    else if c == '\x7b' then more (← s.openBracket .flowMapping)
    else if c == ']' then more (← s.closeBracket .flowSequenceEnd)
    else if c == '\x7d' then more (← s.closeBracket .flowMappingEnd)
    else if c == ',' then more (← s.comma)
    else if c == '-' && atGap rest then more (← s.dash)
    else if c == '?' && (s.brackets != 0 || atGap rest) then more (← s.explicitKey)
    else if c == ':' && (s.brackets != 0 || atGap rest) then more (← s.colon)
    else if c == '*' then
      more (← s.label ((name rest).map fun read => (.alias (String.ofList read.text), read.rest)))
    else if c == '&' then
      more (← s.label ((name rest).map fun read => (.anchor (String.ofList read.text), read.rest)))
    else if c == '!' then
      more (← s.label ((writtenTag rest).map fun (tag, rest) => (.tag tag, rest)))
    else if (c == '|' || c == '>') && s.brackets == 0 then
      let s ← s.forget
      more (s.characters (← block (c == '>') s.indent rest) false true)
    else if c == '\'' then
      let s ← s.remember
      more (s.characters (← singleQuoted (rest.length + 1) rest) false false)
    else if c == '"' then
      let s ← s.remember
      let read ← doubleQuoted (rest.length + 1) rest
      more (s.scalar read.text read.rest false false)
    else if s.startsPlain s.rest then
      let s ← s.remember
      let read := plain (s.brackets != 0) (s.indent + 1) s.rest.length s.rest
      more (s.characters read.toRead true read.newLine)
    else throw (malformed "found a character that cannot start any token")
where
  /-- There is more to read. -/
  more (s : Scanner) : Except Fault (Scanner × Bool) := .ok (s, true)

/-- All tokens up to the end of the file, or up to a fault in it. -/
def all : Nat → Scanner → List Token
  | 0, s => s.tokens
  | fuel + 1, s =>
    match s.next with
    | .ok (s, true) => all fuel s
    | .ok (s, false) => s.tokens
    | .error fault => s.tokens.take s.settled ++ [.broken fault]

end Scanner

/-- Whether a character may stand in a settings file. -/
def isAllowed (c : Char) : Bool :=
  let n := c.toNat
  c == '\t' || c == '\n' || c == '\r' || n == 0x85 || (decide (0x20 ≤ n) && decide (n ≤ 0x7E))
    || (decide (0xA0 ≤ n) && decide (n ≤ 0xD7FF))
    || (decide (0xE000 ≤ n) && decide (n ≤ 0xFFFD))
    || decide (0x10000 ≤ n)

/-- The tokens of a file. -/
def tokensOf (text : List Char) : List Token :=
  if text.all isAllowed then (Scanner.start text).all (text.length + 2)
  else [.broken (malformed "special characters are not allowed")]

end Keysong.Yaml
