import Keysong.Fault

/-!
# Scalars

How quoted, plain and block scalars of a settings file are read.  A line break inside a scalar is
folded: a single one becomes a space, and of several the first is dropped.

Only a scalar between double quotation marks can hold escapes, so only there can halves of surrogate
pairs come from: it is read as code points, and all others as characters.

## Main Definitions

* `Read` — what was read, and the text behind it
* `singleQuoted`, `doubleQuoted` — scalars between quotation marks
* `plain` — a scalar without marks
* `block` — a scalar whose lines are indented below its header
-/

namespace Keysong.Yaml

open Keysong.Text

/-- The fault of a text that is not well formed. -/
def malformed (reason : String) : Fault := .malformedDocument reason

/-- Whether a character ends a line. -/
def isBreak (c : Char) : Bool :=
  c == '\n' || c == '\r' || c == '\u0085' || c == '\u2028' || c == '\u2029'

/-- Whether a text is at its end, at a space or at the end of a line. -/
def atGap : List Char → Bool
  | [] => true
  | c :: _ => c == ' ' || c == '\t' || isBreak c

/-- Reads the end of a line, if the text starts with one.  All ends but two are the same. -/
def lineBreak? : List Char → Option (Char × List Char)
  | '\r' :: '\n' :: rest => some ('\n', rest)
  | c :: rest =>
    if c == '\u2028' || c == '\u2029' then some (c, rest)
    else if isBreak c then some ('\n', rest)
    else none
  | [] => none

/-- Whether a text starts with a line that separates documents. -/
def atSeparator (text : List Char) : Bool :=
  (text.take 3 == ['-', '-', '-'] || text.take 3 == ['.', '.', '.']) && atGap (text.drop 3)

/-- What was read, and the text behind it. -/
structure Read (α : Type) where
  text : List α
  rest : List Char
  deriving Repr, DecidableEq

/-- What a line break and the blank lines behind it are folded to. -/
def folded (first : Char) (others : List Char) : List Char :=
  if first != '\n' then first :: others
  else if others.isEmpty then [' ']
  else others

/-! ### Quoted scalars -/

/-- The blank lines inside a quoted scalar, and the spaces in front of its next line. -/
def quotedBreaks : Nat → List Char → Except Fault (Read Char)
  | 0, text => .ok ⟨[], text⟩
  | fuel + 1, text =>
    if atSeparator text then .error (malformed "found unexpected document separator")
    else
      let text := text.dropWhile fun c => c == ' ' || c == '\t'
      match lineBreak? text with
      | none => .ok ⟨[], text⟩
      | some (c, rest) => do
        let more ← quotedBreaks fuel rest
        return ⟨c :: more.text, more.rest⟩

/-- White space inside a quoted scalar. -/
def quotedSpaces (text : List Char) : Except Fault (Read Char) :=
  let spaces := text.takeWhile fun c => c == ' ' || c == '\t'
  let behind := text.dropWhile fun c => c == ' ' || c == '\t'
  match behind, lineBreak? behind with
  | [], _ => .error (malformed "found unexpected end of stream")
  | _, none => .ok ⟨spaces, behind⟩
  | _, some (c, rest) => do
    let more ← quotedBreaks rest.length rest
    return ⟨folded c more.text, more.rest⟩

/-- Reads a scalar behind its opening single quotation mark. -/
def singleQuoted : Nat → List Char → Except Fault (Read Char)
  | 0, _ => .error (malformed "found unexpected end of stream")
  | fuel + 1, text =>
    match text with
    | '\'' :: '\'' :: rest => do
      let more ← singleQuoted fuel rest
      return ⟨'\'' :: more.text, more.rest⟩
    | '\'' :: rest => .ok ⟨[], rest⟩
    | _ =>
      if atGap text then do
        let gap ← quotedSpaces text
        let more ← singleQuoted fuel gap.rest
        return ⟨gap.text ++ more.text, more.rest⟩
      else do
        let more ← singleQuoted fuel (text.drop 1)
        return ⟨text.take 1 ++ more.text, more.rest⟩

/-- The character that an escape of one character stands for. -/
def escaped? : Char → Option Char
  | '0' => some '\x00'
  | 'a' => some '\x07'
  | 'b' => some '\x08'
  | 't' | '\t' => some '\t'
  | 'n' => some '\n'
  | 'v' => some '\x0B'
  | 'f' => some '\x0C'
  | 'r' => some '\r'
  | 'e' => some '\x1B'
  | ' ' => some ' '
  | '"' => some '"'
  | '\\' => some '\\'
  | '/' => some '/'
  | 'N' => some '\u0085'
  | '_' => some '\u00A0'
  | 'L' => some '\u2028'
  | 'P' => some '\u2029'
  | _ => none

/-- How many hexadecimal digits follow an escape. -/
def codeLength? : Char → Option Nat
  | 'x' => some 2
  | 'u' => some 4
  | 'U' => some 8
  | _ => none

/-- The value of a hexadecimal digit. -/
def hexDigit? (c : Char) : Option Nat :=
  let n := c.toNat
  if 48 ≤ n ∧ n ≤ 57 then some (n - 48)
  else if 97 ≤ n ∧ n ≤ 102 then some (n - 87)
  else if 65 ≤ n ∧ n ≤ 70 then some (n - 55)
  else none

/-- The code point with a number in a set number of hexadecimal digits.  A number that does not fit
a word of 32 bits with a sign is not even looked up. -/
def coded (count : Nat) (text : List Char) : Except Fault CodePoint :=
  let digits := (text.take count).filterMap hexDigit?
  let number := digits.foldl (fun n d => 16 * n + d) 0
  if digits.length != count then
    .error (malformed "expected escape sequence of hexadecimal numbers")
  else
    match CodePoint.ofCode? number with
    | some point => .ok point
    | none => .error (if number < 0x80000000 then .codeTooLarge else .codeBeyondWords)

/-- Reads a scalar behind its opening double quotation mark. -/
def doubleQuoted : Nat → List Char → Except Fault (Read CodePoint)
  | 0, _ => .error (malformed "found unexpected end of stream")
  | fuel + 1, text =>
    match text with
    | '"' :: rest => .ok ⟨[], rest⟩
    | '\\' :: c :: rest =>
      match escaped? c, codeLength? c with
      | some character, _ => do
        let more ← doubleQuoted fuel rest
        return ⟨.char character :: more.text, more.rest⟩
      | none, some count => do
        let point ← coded count rest
        let more ← doubleQuoted fuel (rest.drop count)
        return ⟨point :: more.text, more.rest⟩
      | none, none =>
        match lineBreak? (c :: rest) with
        | none => .error (malformed "found unknown escape character")
        | some (_, rest) => do
          let gap ← quotedBreaks rest.length rest
          let more ← doubleQuoted fuel gap.rest
          return ⟨codePoints gap.text ++ more.text, more.rest⟩
    | _ =>
      if atGap text then do
        let gap ← quotedSpaces text
        let more ← doubleQuoted fuel gap.rest
        return ⟨codePoints gap.text ++ more.text, more.rest⟩
      else do
        let more ← doubleQuoted fuel (text.drop 1)
        return ⟨codePoints (text.take 1) ++ more.text, more.rest⟩

/-! ### Plain scalars -/

/-- Whether a character has a meaning of its own between the brackets of a collection. -/
def isFlowMark (c : Char) : Bool := c == ',' || c == '[' || c == ']' || c == '\x7b' || c == '\x7d'

/-- Whether a plain scalar cannot go on with a text. -/
def endsPlain (inFlow : Bool) (text : List Char) : Bool :=
  match text with
  | [] => true
  | ':' :: rest =>
    atGap rest || (inFlow && (match rest with | [] => true | c :: _ => isFlowMark c))
  | c :: _ => atGap text || (inFlow && (isFlowMark c || c == '?'))

/-- A part of a plain scalar without white space. -/
def plainRun (inFlow : Bool) : List Char → Read Char
  | [] => ⟨[], []⟩
  | c :: rest =>
    if endsPlain inFlow (c :: rest) then ⟨[], c :: rest⟩
    else
      let more := plainRun inFlow rest
      ⟨c :: more.text, more.rest⟩

/-- White space between two parts of a plain scalar. -/
structure Gap where
  /-- What it is folded to; empty where the scalar has to end. -/
  text : List Char
  rest : List Char
  newLine : Bool
  /-- The column behind it, if it reaches a new line. -/
  column : Nat

/-- The blank lines inside a plain scalar, and the spaces in front of its next line.  Nothing is
folded in front of a line that separates documents. -/
def plainBreaks : Nat → Nat → List Char → Option (List Char) × Nat × List Char
  | 0, column, text => (some [], column, text)
  | fuel + 1, column, text =>
    match text with
    | ' ' :: rest => plainBreaks fuel (column + 1) rest
    | _ =>
      match lineBreak? text with
      | none => (some [], column, text)
      | some (c, rest) =>
        if atSeparator rest then (none, 0, rest)
        else
          let (more, column, rest) := plainBreaks fuel 0 rest
          (more.map (c :: ·), column, rest)

/-- White space behind a part of a plain scalar. -/
def plainGap (text : List Char) : Gap :=
  let spaces := text.takeWhile (· == ' ')
  let behind := text.dropWhile (· == ' ')
  match lineBreak? behind with
  | none => ⟨spaces, behind, false, 0⟩
  | some (c, rest) =>
    if atSeparator rest then ⟨[], rest, true, 0⟩
    else
      match plainBreaks rest.length 0 rest with
      | (none, column, rest) => ⟨[], rest, true, column⟩
      | (some others, column, rest) => ⟨folded c others, rest, true, column⟩

/-- A plain scalar, the text behind it, and whether that starts a new line. -/
structure PlainRead extends Read Char where
  newLine : Bool

/-- Reads a plain scalar whose later lines are indented at least to a column. -/
def plain (inFlow : Bool) (indent : Int) : Nat → List Char → PlainRead
  | 0, text => ⟨⟨[], text⟩, false⟩
  | fuel + 1, text =>
    if text.head? == some '#' then ⟨⟨[], text⟩, false⟩
    else
      let run := plainRun inFlow text
      if run.text.isEmpty then ⟨⟨[], text⟩, false⟩
      else
        let gap := plainGap run.rest
        let outdented := !inFlow && gap.newLine && decide ((gap.column : Int) < indent)
        if gap.text.isEmpty || gap.rest.head? == some '#' || outdented
            || endsPlain inFlow gap.rest then
          ⟨⟨run.text, gap.rest⟩, gap.newLine⟩
        else
          let more := plain inFlow indent fuel gap.rest
          ⟨⟨run.text ++ gap.text ++ more.text, more.rest⟩, more.newLine⟩

/-! ### Block scalars -/

/-- What the header of a block scalar says about the line breaks at its end. -/
inductive Chomping where
  | strip
  | clip
  | keep
  deriving Repr, DecidableEq

/-- The header of a block scalar. -/
structure BlockHeader where
  chomping : Chomping
  /-- The indentation relative to what surrounds the scalar, if it is given. -/
  increment : Option Nat
  rest : List Char

/-- The digit of a header.  Zero is none. -/
def incrementOf? (c : Char) : Option Nat :=
  (hexDigit? c).filter fun d => decide (1 ≤ d ∧ d ≤ 9)

/-- The mark of a header. -/
def chompingOf? : Char → Option Chomping
  | '+' => some .keep
  | '-' => some .strip
  | _ => none

/-- Reads the header of a block scalar and what is left of its line. -/
def blockHeader (text : List Char) : Except Fault BlockHeader :=
  let first := text.head?
  let second := (text.drop 1).head?
  let header : BlockHeader :=
    match first.bind chompingOf?, first.bind incrementOf? with
    | some chomping, _ =>
      match second.bind incrementOf? with
      | some n => ⟨chomping, some n, text.drop 2⟩
      | none => ⟨chomping, none, text.drop 1⟩
    | none, some n =>
      match second.bind chompingOf? with
      | some chomping => ⟨chomping, some n, text.drop 2⟩
      | none => ⟨.clip, some n, text.drop 1⟩
    | none, none => ⟨.clip, none, text⟩
  let endsHeader :=
    match header.rest with
    | [] => true
    | c :: _ => c == ' ' || isBreak c
  let behind := header.rest.dropWhile (· == ' ')
  let behind := if behind.head? == some '#' then behind.dropWhile fun c => !isBreak c else behind
  if !endsHeader then .error (malformed "expected chomping or indentation indicators")
  else
    match behind, lineBreak? behind with
    | [], _ => .ok { header with rest := [] }
    | _, some (_, rest) => .ok { header with rest }
    | _, none => .error (malformed "expected a comment or a line break")

/-- Skips blank lines and at most `indent` spaces of the next line.  Gives the breaks, the column
reached, the deepest column seen, and the text behind. -/
def blockBreaks (indent : Option Nat) : Nat → Nat → Nat → List Char →
    List Char × Nat × Nat × List Char
  | 0, column, deepest, text => ([], column, deepest, text)
  | fuel + 1, column, deepest, text =>
    match text with
    | ' ' :: rest =>
      if indent.all fun n => decide (column < n) then
        blockBreaks indent fuel (column + 1) (max deepest (column + 1)) rest
      else ([], column, deepest, text)
    | _ =>
      match lineBreak? text with
      | none => ([], column, deepest, text)
      | some (c, rest) =>
        let (more, column, deepest, rest) := blockBreaks indent fuel 0 deepest rest
        (c :: more, column, deepest, rest)

/-- Whether a text starts with a space or a tab. -/
def startsBlank (text : List Char) : Bool :=
  match text with
  | ' ' :: _ | '\t' :: _ => true
  | _ => false

/-- The lines of a block scalar: the text up to the last line, its line break, and the blank lines
behind it. -/
def blockLines (fold : Bool) (indent : Nat) :
    Nat → List Char → List Char × List Char × List Char × List Char
  | 0, text => ([], [], [], text)
  | fuel + 1, text =>
    let line := text.takeWhile fun c => !isBreak c
    let behind := text.dropWhile fun c => !isBreak c
    match lineBreak? behind with
    | none => (line, [], [], behind)
    | some (c, rest) =>
      let (breaks, column, _, rest) := blockBreaks (some indent) rest.length 0 0 rest
      if column == indent && !rest.isEmpty then
        let joint :=
          if fold && c == '\n' && !startsBlank text && !startsBlank rest then
            (if breaks.isEmpty then [' '] else [])
          else [c]
        let (more, last, blank, rest) := blockLines fold indent fuel rest
        (line ++ joint ++ breaks ++ more, last, blank, rest)
      else (line, [c], breaks, rest)

/-- Reads a block scalar behind its first character. -/
def block (fold : Bool) (surrounding : Int) (text : List Char) : Except Fault (Read Char) := do
  let header ← blockHeader text
  let least := (max 1 (surrounding + 1)).toNat
  let (first, column, indent, rest) :=
    match header.increment with
    | some n =>
      let indent := least + n - 1
      let (breaks, column, _, rest) := blockBreaks (some indent) header.rest.length 0 0 header.rest
      (breaks, column, indent, rest)
    | none =>
      let (breaks, column, deepest, rest) := blockBreaks none header.rest.length 0 0 header.rest
      (breaks, column, max least deepest, rest)
  let (body, last, blank, rest) :=
    if column == indent && !rest.isEmpty then
      let (body, last, blank, rest) := blockLines fold indent rest.length rest
      (first ++ body, last, blank, rest)
    else ([], [], first, rest)
  return match header.chomping with
    | .strip => ⟨body, rest⟩
    | .clip => ⟨body ++ last, rest⟩
    | .keep => ⟨body ++ last ++ blank, rest⟩

end Keysong.Yaml
