import Keysong.Decimal.Reading
import Keysong.Value

/-!
# Command lines

How the words of a command line are sorted into options and operands.  Options may stand before
and behind operands, long ones may be cut short as long as they stay unique, and a double dash
ends them.  A word that starts with a dash is an operand all the same if it is a negative number,
holds a space, or is nothing but the dash.

## Main Definitions

* `Flag` — an option, under all its names
* `Word`, `sortWords` — what a word of a command line is
* `Arguments`, `arguments` — what a command line asks for
* `Refusal` — why nothing is run: help was asked for, or the line makes no sense
-/

namespace Keysong.Command

open Keysong.Text

/-- Why a command line is not run. -/
inductive Refusal where
  /-- Help was asked for. -/
  | help
  /-- The line makes no sense. -/
  | misuse
  deriving Repr, DecidableEq

/-- What an option changes. -/
inductive Effect where
  | help
  | config
  | verbose
  | bpm
  | device
  | output
  deriving Repr, DecidableEq

/-- An option. -/
structure Flag where
  names : List (List Char)
  effect : Effect
  takesValue : Bool
  deriving Repr, DecidableEq

/-- The option that asks for help. -/
def helpFlag : Flag := ⟨[['-', 'h'], "--help".toList], .help, false⟩

/-- The options in front of the command. -/
def leadingFlags : List Flag :=
  [helpFlag, ⟨["--config".toList], .config, true⟩, ⟨["--verbose".toList], .verbose, false⟩]

/-- The commands. -/
inductive Name where
  | play
  | exportFile
  | showEvents
  deriving Repr, DecidableEq

/-- The command with a name. -/
def Name.ofText? (s : String) : Option Name :=
  if s == "play" then some .play
  else if s == "export" then some .exportFile
  else if s == "show" then some .showEvents
  else none

/-- The options of a command. -/
def Name.flags : Name → List Flag
  | .play => [helpFlag, bpm, ⟨["--device".toList], .device, true⟩]
  | .exportFile => [helpFlag, bpm, ⟨[['-', 'o'], "--output".toList], .output, true⟩]
  | .showEvents => [helpFlag, bpm]
where
  bpm : Flag := ⟨["--bpm".toList], .bpm, true⟩

/-- What a word of a command line is. -/
inductive Word where
  | operand (text : List Char)
  /-- The double dash that ends the options. -/
  | divider
  /-- An option under one of its names, and the value that is part of the word. -/
  | flag (flag : Flag) (name : List Char) (value : Option (List Char))
  | unknown
  deriving Repr, DecidableEq

/-- The text of a word up to the first equals sign, and behind it. -/
def splitEquals (text : List Char) : Option (List Char × List Char) :=
  match text.dropWhile (· != '=') with
  | [] => none
  | _ :: behind => some (text.takeWhile (· != '='), behind)

/-- Whether a text is a negative number.  A line break at its end does not count. -/
def isNegativeNumber (text : List Char) : Bool :=
  let text := if text.getLast? == some '\n' then text.dropLast else text
  match text with
  | '-' :: body =>
    let whole := body.takeWhile Decimal.isDigit
    match body.dropWhile Decimal.isDigit with
    | [] => !whole.isEmpty
    | '.' :: places => !places.isEmpty && places.all Decimal.isDigit
    | _ => false
  | _ => false

/-- The options of a list under a name. -/
def named (flags : List Flag) (name : List Char) : List (Flag × List Char) :=
  flags.flatMap fun f => (f.names.filter (· == name)).map fun n => (f, n)

/-- The options of a list whose name starts with a text. -/
def startingWith (flags : List Flag) (text : List Char) : List (Flag × List Char) :=
  flags.flatMap fun f => (f.names.filter fun n => text.isPrefixOf n).map fun n => (f, n)

/-- The options that a word may be short for, each with what the word holds behind it. -/
def candidates (flags : List Flag) (text : List Char) : List Word :=
  if text.take 2 == ['-', '-'] then
    let (name, value) := match splitEquals text with
      | some (name, value) => (name, some value)
      | none => (text, none)
    (startingWith flags name).map fun (f, n) => .flag f n value
  else
    (named flags (text.take 2)).map fun (f, n) => .flag f n (some (text.drop 2))

/-- What a word is, as long as no double dash came before it. -/
def sortWord (flags : List Flag) (text : List Char) : Except Refusal Word :=
  match text with
  | '-' :: _ :: _ =>
    match named flags text with
    | (f, n) :: _ => .ok (.flag f n none)
    | [] =>
      match (splitEquals text).bind fun (name, value) =>
          (named flags name).head?.map fun (f, n) => Word.flag f n (some value) with
      | some word => .ok word
      | none =>
        match candidates flags text with
        | [word] => .ok word
        | _ :: _ :: _ => .error .misuse
        | [] => .ok (if isNegativeNumber text || text.contains ' ' then .operand text else .unknown)
  | _ => .ok (.operand text)

/-- What the words of a command line are. -/
def sortWords (flags : List Flag) : List (List Char) → Except Refusal (List Word)
  | [] => .ok []
  | text :: rest =>
    if text == ['-', '-'] then .ok (.divider :: rest.map .operand)
    else do return (← sortWord flags text) :: (← sortWords flags rest)

/-- An option that was used, with its value.  An option that takes no value has none, and a double
dash as part of the word counts as an empty list and not as a text. -/
structure Use where
  effect : Effect
  value : Value

/-- The use of an option with a value that is part of the word. -/
def Use.joined (effect : Effect) (value : List Char) : Use :=
  ⟨effect, if value == ['-', '-'] then .list [] else .text (String.ofList value)⟩

/-- What a word with an option asks for. -/
structure Chain where
  uses : List Use
  /-- An option that still needs a value. -/
  pending : Option Flag

/-- What an option asks for that nothing follows in its word. -/
def Flag.alone (f : Flag) : Chain :=
  if f.takesValue then ⟨[], some f⟩ else ⟨[⟨f.effect, .null⟩], none⟩

/-- What an option asks for that is followed by a text in its word.  Options of one letter may be
run together: what follows one without a value is the next. -/
def unchain (flags : List Flag) (f : Flag) (name : List Char) : List Char → Except Refusal Chain
  | [] => if f.takesValue then .ok ⟨[.joined f.effect []], none⟩ else .error .misuse
  | letter :: behind =>
    if f.takesValue then .ok ⟨[.joined f.effect (letter :: behind)], none⟩
    else if name.take 2 == ['-', '-'] then .error .misuse
    else
      match named flags ['-', letter] with
      | [] => .error .misuse
      | (next, nextName) :: _ => do
        let more ← if behind.isEmpty then .ok next.alone else unchain flags next nextName behind
        return { more with uses := ⟨f.effect, .null⟩ :: more.uses }

/-- The uses of an option, and the words behind it.  A value that is not part of the word is the
next one, which has to be an operand. -/
def takeFlag (flags : List Flag) (f : Flag) (name : List Char) (value : Option (List Char))
    (rest : List Word) : Except Refusal (List Use × List Word) := do
  let chain ←
    match value with
    | none => .ok f.alone
    | some text => unchain flags f name text
  match chain.pending, rest with
  | none, _ => return (chain.uses, rest)
  | some f, .operand v :: rest => return (chain.uses ++ [⟨f.effect, .text (String.ofList v)⟩], rest)
  | some _, _ => throw .misuse

/-- What a command line asks for.  An option that was not used has no value. -/
structure Arguments where
  config : Value
  verbose : Bool
  name : Name
  text : String
  bpm : Value
  device : Value
  output : Value

/-- What is known of a command line so far. -/
structure Draft where
  config : Value := .text "typetone.yaml"
  verbose : Bool := false
  text : Option (List Char) := none
  bpm : Value := .null
  device : Value := .null
  output : Value := .null
  /-- Whether a word was seen that has no place. -/
  surplus : Bool := false

/-- What the use of an option changes.  The last use of an option wins. -/
def Draft.use (d : Draft) (u : Use) : Except Refusal Draft :=
  match u.effect with
  | .help => .error .help
  | .config => .ok { d with config := u.value }
  | .verbose => .ok { d with verbose := true }
  | .device => .ok { d with device := u.value }
  | .output => .ok { d with output := u.value }
  | .bpm =>
    match u.value with
    | .text s =>
      match Decimal.readDecimal s.toList with
      | some x => .ok { d with bpm := .float x }
      | none => .error .misuse
    | other => .ok { d with bpm := other }

/-- Drops a double dash. -/
def behindDivider : List Word → List Word
  | .divider :: rest => rest
  | rest => rest

/-- What the words behind the name of a command ask for: one operand, which a double dash may
stand before or behind, and options. -/
def readCommand (flags : List Flag) : Nat → Draft → List Word → Except Refusal Draft
  | 0, d, _ => .ok d
  | _ + 1, d, [] => .ok d
  | fuel + 1, d, word :: rest =>
    match word with
    | .unknown => readCommand flags fuel { d with surplus := true } rest
    | .flag f name value => do
      let (uses, rest) ← takeFlag flags f name value rest
      let d ← uses.foldlM Draft.use d
      readCommand flags fuel d rest
    | .operand text =>
      match d.text with
      | none => readCommand flags fuel { d with text := some text } (behindDivider rest)
      | some _ => readCommand flags fuel { d with surplus := true } rest
    | .divider =>
      match d.text, rest with
      | none, .operand text :: rest => readCommand flags fuel { d with text := some text } rest
      | _, _ => readCommand flags fuel { d with surplus := true } rest

/-- What a command line asks for, with the words behind those that are sorted. -/
def readLeading : Nat → Draft → List Word → List (List Char) → Except Refusal Arguments
  | 0, _, _, _ => .error .misuse
  | fuel + 1, d, words, texts =>
    match words with
    | .unknown :: rest => readLeading fuel { d with surplus := true } rest (texts.drop 1)
    | .flag f name value :: rest => do
      let (uses, behind) ← takeFlag leadingFlags f name value rest
      let d ← uses.foldlM Draft.use d
      readLeading fuel d behind (texts.drop (words.length - behind.length))
    | .operand command :: _ =>
      match Name.ofText? (String.ofList command) with
      | none => .error .misuse
      | some name => do
        let words ← sortWords name.flags (texts.drop 1)
        let d ← readCommand name.flags (words.length + 1) d words
        match d.text with
        | none => throw .misuse
        | some text =>
          if d.surplus then throw .misuse
          else return { config := d.config, verbose := d.verbose, name, text := String.ofList text
                        bpm := d.bpm, device := d.device, output := d.output }
    | _ => .error .misuse

/-- What a command line asks for. -/
def arguments (line : List String) : Except Refusal Arguments := do
  let texts := line.map String.toList
  let words ← sortWords leadingFlags texts
  readLeading (words.length + 1) {} words texts

end Keysong.Command
