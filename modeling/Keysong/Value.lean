import Keysong.Calendar
import Keysong.Decimal.Limit
import Keysong.Decimal.Text
import Keysong.Text.Quoted

/-!
# Loosely typed values

What a settings file can hold under any key.  Settings are checked where they are used, so a value
of the wrong shape travels until then, and messages show it in its written form.

## Main Definitions

* `Value` — null, truth values, numbers, texts, dates, lists, mappings and a few more
* `Value.isTruthy` — whether a value counts as switched on
* `Value.written` — its form in messages
* `Value.isWritable` — whether it has one
* `Value.sameKey`, `Value.put` — keys of mappings
-/

namespace Keysong

open Keysong.Text

/-- A value of any shape. -/
inductive Value where
  | null
  | bool (b : Bool)
  | int (n : Int)
  | float (x : Float)
  | text (s : String)
  /-- A text with halves of surrogate pairs, which no string is equal to. -/
  | ragged (points : List CodePoint)
  | bytes (contents : List UInt8)
  | date (d : Date)
  | moment (m : Moment)
  | list (items : List Value)
  | pair (first second : Value)
  | set (members : List Value)
  | mapping (entries : List (Value × Value))
  /-- A list or a mapping at a place inside itself.  The number tells how many others lie between. -/
  | loop (isMapping : Bool) (between : Nat)
  deriving Repr, Inhabited

namespace Value

/-- A text of code points. -/
def ofPoints (points : List CodePoint) : Value :=
  match asCharacters? points with
  | some characters => text (String.ofList characters)
  | none => ragged points

/-- Whether a value counts as switched on: everything but null, false, zero and what is empty. -/
def isTruthy : Value → Bool
  | null => false
  | bool b => b
  | int n => n != 0
  | float x => !(x == 0)
  | text s => !s.isEmpty
  | ragged points => !points.isEmpty
  | bytes contents => !contents.isEmpty
  | list items => !items.isEmpty
  | set members => !members.isEmpty
  | mapping entries => !entries.isEmpty
  | date _ | moment _ | pair .. | loop .. => true

/-- The form of bytes in messages.  Those that are visible characters are shown as such. -/
def writtenBytes (contents : List UInt8) : String :=
  let characters := contents.map fun b => Char.ofNat b.toNat
  let mark := Quoted.markFor (codePoints characters)
  let shown (c : Char) : List Char :=
    if c.toNat < 0x7F then Quoted.escape mark c else Quoted.byNumber c.toNat
  String.ofList ('b' :: mark :: (characters.flatMap shown ++ [mark]))

mutual

/-- The form of a value in messages. -/
def written : Value → String
  | null => "None"
  | bool true => "True"
  | bool false => "False"
  | int n => toString n
  | float x => Decimal.plain x
  | text s => quoted s
  | ragged points => quotedPoints points
  | bytes contents => writtenBytes contents
  | date d => d.written
  | moment m => m.written
  | list items => bracketed "[" "]" (writtenItems items)
  | pair first second => bracketed "(" ")" [written first, written second]
  | set [] => "set()"
  | set members => bracketed "\x7b" "\x7d" (writtenItems members)
  | mapping entries => bracketed "\x7b" "\x7d" (writtenEntries entries)
  | loop false _ => "[...]"
  | loop true _ => "\x7b...\x7d"

/-- The forms of a row of values. -/
def writtenItems : List Value → List String
  | [] => []
  | v :: rest => written v :: writtenItems rest

/-- The forms of the entries of a mapping. -/
def writtenEntries : List (Value × Value) → List String
  | [] => []
  | (key, v) :: rest => (written key ++ ": " ++ written v) :: writtenEntries rest

end

mutual

/-- Whether a value has a form in messages: all integers in it can be written. -/
def isWritable : Value → Bool
  | int n => Decimal.isWritable n
  | list items => areWritable items
  | pair first second => isWritable first && isWritable second
  | set members => areWritable members
  | mapping entries => haveWritable entries
  | _ => true

/-- Whether all values of a row have a form in messages. -/
def areWritable : List Value → Bool
  | [] => true
  | v :: rest => isWritable v && areWritable rest

/-- Whether all entries of a mapping have a form in messages. -/
def haveWritable : List (Value × Value) → Bool
  | [] => true
  | (key, v) :: rest => isWritable key && isWritable v && haveWritable rest

end

/-- A value as part of running text: a text without marks, everything else as it is written. -/
def display : Value → List CodePoint
  | text s => s
  | ragged points => points
  | date d => d.display
  | moment m => m.display
  | other => other.written

/-- A double is the same number as an integer. -/
def sameNumber (x : Float) (n : Int) : Bool :=
  match (Decimal.Double.ofFloat x).size with
  | .finite _ _ => let value := (Decimal.Double.ofFloat x).toRat
    value.num == n && value.den == 1
  | _ => false

/-- The integer that a truth value counts as where numbers are compared. -/
def ofBool (b : Bool) : Int := if b then 1 else 0

/-- Whether two values are the same key of a mapping.

Numbers are compared by value, and a truth value is the number one or zero.  What is no number at
all is the same as itself.  Lists, sets and mappings are never keys. -/
def sameKey : Value → Value → Bool
  | null, null => true
  | text s, text t => s == t
  | ragged s, ragged t => s == t
  | bytes a, bytes b => a == b
  | date a, date b => a == b
  | moment a, moment b => a.same b
  | float x, float y => x == y || (x.isNaN && y.isNaN)
  | float x, int n | int n, float x => sameNumber x n
  | float x, bool b | bool b, float x => sameNumber x (ofBool b)
  | int m, int n => m == n
  | int m, bool b | bool b, int m => m == ofBool b
  | bool b, bool d => b == d
  | _, _ => false

/-- Whether a value can be a key of a mapping. -/
def canBeKey : Value → Bool
  | list _ | set _ | mapping _ | loop .. => false
  | _ => true

/-- The value under a key, read as a text. -/
def find? (entries : List (Value × Value)) (key : String) : Option Value :=
  (entries.find? fun entry => sameKey entry.1 (.text key)).map (·.2)

/-- Adds an entry.  A key that is there keeps its place and takes the new value. -/
def put (entries : List (Value × Value)) (key v : Value) : List (Value × Value) :=
  match entries with
  | [] => [(key, v)]
  | (k, old) :: rest => if sameKey k key then (k, v) :: rest else (k, old) :: put rest key v

/-- Adds a member to a set, unless it is there. -/
def join (members : List Value) (v : Value) : List Value :=
  if members.any fun m => sameKey m v then members else members ++ [v]

@[simp] theorem isTruthy_null : isTruthy null = false := rfl

@[simp] theorem isTruthy_bool (b : Bool) : isTruthy (bool b) = b := rfl

end Value

end Keysong
