import Keysong.Fault

/-!
# Spelled pitches

A pitch is a letter, an accidental and an octave.  Two spellings can share a note number: the
accidental is kept as it was written.

## Main Definitions

* `Letter` — the seven letters
* `Pitch` — a letter, an offset in semitones and an octave
* `Pitch.number` — its note number, with C4 at 60
* `Pitch.name` — its spelling
* `Pitch.shifted` — the same letter with its accidental moved
-/

namespace Keysong

/-- The letters of the natural notes. -/
inductive Letter where
  | c | d | e | f | g | a | b
  deriving Repr, DecidableEq

namespace Letter

/-- Semitones above the C of the same octave. -/
def semitones : Letter → Int
  | c => 0
  | d => 2
  | e => 4
  | f => 5
  | g => 7
  | a => 9
  | b => 11

/-- The capital letter. -/
def toChar : Letter → Char
  | c => 'C'
  | d => 'D'
  | e => 'E'
  | f => 'F'
  | g => 'G'
  | a => 'A'
  | b => 'B'

/-- The letter that a capital letter stands for. -/
def ofChar? : Char → Option Letter
  | 'C' => some c
  | 'D' => some d
  | 'E' => some e
  | 'F' => some f
  | 'G' => some g
  | 'A' => some a
  | 'B' => some b
  | _ => none

@[simp] theorem ofChar?_toChar (letter : Letter) : ofChar? letter.toChar = some letter := by
  cases letter <;> rfl

end Letter

/-- A spelled pitch. -/
structure Pitch where
  letter : Letter
  accidental : Int
  octave : Int
  deriving Repr, DecidableEq

namespace Pitch

/-- The note number, with C4 at 60. -/
def number (p : Pitch) : Int := 12 * (p.octave + 1) + p.letter.semitones + p.accidental

/-- How an accidental is written: up to two signs, a signed number beyond. -/
def accidentalText (offset : Int) : String :=
  if offset = -2 then "bb"
  else if offset = -1 then "b"
  else if offset = 0 then ""
  else if offset = 1 then "#"
  else if offset = 2 then "##"
  else Decimal.withPlus offset

/-- The spelling, such as `F#4`. -/
def name (p : Pitch) : String :=
  String.singleton p.letter.toChar ++ accidentalText p.accidental ++ toString p.octave

/-- The same letter with its accidental moved. -/
def shifted (p : Pitch) (semitones : Int) : Pitch :=
  { p with accidental := p.accidental + semitones }

/-- A pitch from a letter that may be none. -/
def ofLetter (letter : String) (accidental octave : Int) : Except Fault Pitch :=
  match letter.toList with
  | [c] =>
    match Letter.ofChar? c with
    | some letter => .ok { letter, accidental, octave }
    | none => .error (.unknownLetter letter)
  | _ => .error (.unknownLetter letter)

@[simp] theorem number_shifted (p : Pitch) (semitones : Int) :
    (p.shifted semitones).number = p.number + semitones := by
  simp [number, shifted, Int.add_assoc]

end Pitch

end Keysong
