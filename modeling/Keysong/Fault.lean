import Keysong.Value

/-!
# Faults

Everything that can be refused, one constructor per cause.  The wording of all messages is in
`Fault.message`, and `Fault.kind` sorts the causes by what a caller can do about them.

## Main Definitions

* `Fault` — a cause
* `FaultKind`, `Fault.kind` — the sort of a cause
* `Fault.message` — its wording

## Design Notes

Some wordings show a value.  If that value holds an integer with too many digits to be written,
there is no wording, and what is reported is that instead: `kind` and `message` look at
`Fault.isWritable` first.
-/

namespace Keysong

open Keysong.Text

/-- Sorts of faults. -/
inductive FaultKind where
  /-- A value that is never allowed where it stands. -/
  | invalidValue
  /-- A tempo that is no tempo. -/
  | invalidTempo
  /-- A value of the wrong shape. -/
  | wrongShape
  /-- A value that lacks what is asked of it. -/
  | missingPart
  /-- A number beyond the range of its representation. -/
  | overflow
  /-- A word or a digit that is not there. -/
  | missingKey
  | missingIndex
  /-- A file or a directory that is not there. -/
  | missingFile
  /-- A directory where a file is needed. -/
  | directory
  /-- A file where a directory is needed. -/
  | notDirectory
  /-- Any other refusal of the system. -/
  | system
  /-- A text that cannot be written in single bytes. -/
  | unencodable
  /-- A number that does not fit its field in a file. -/
  | unpackable
  /-- A settings file that cannot be read. -/
  | malformedDocument
  /-- A settings file that is nested too deeply. -/
  | nesting
  deriving Repr, DecidableEq

/-- The causes for which something is refused. -/
inductive Fault where
  | unknownLetter (letter : String)
  | unknownNoteName (name : String)
  | longKeyboardKey (key : String)
  | malformedInteger (base : Nat) (value : Value)
  | tooManyDigits (digits : Nat)
  | integerOfUndefined
  | integerOfInfinite
  | notAnInteger (value : Value)
  | numberTooLarge
  | malformedNumber (value : Value)
  /-- A number without a single digit. -/
  | emptyNumber
  | unwritableInteger
  | tempoNotNumber (value : Value)
  | tempoOutOfRange (value : Value)
  | noSteps
  | stepsGetLonger
  | unitTooShort (length : Int)
  | longRestKey (key : String)
  | unknownRestTable (name : Value)
  | restTableNotName (value : Value)
  | markerNotSingle (marker : Value)
  | markerWithoutLength (marker : Value)
  | markerNotText (marker : Value)
  | markersNotDistinct (markers : List Value)
  | velocityOutOfRange (velocity : Float)
  | markerIsRest (marker : Char)
  | markerIsPitch (marker : Char)
  | emptyChord
  | repeatedStrike (names : List String)
  | resolutionNotPositive
  | channelOutOfRange (channel : Int)
  | emptyNote
  | noteOutOfRange (number : Int)
  | microsecondsOutOfRange
  | resolutionTooLarge
  | trackTooLong
  | nameNotText (value : Value)
  /-- The first and the last position of the first run of characters without a byte. -/
  | nameUnencodable (code : Nat) (first last : Nat)
  | startNegative
  | lengthNotPositive
  | sectionNotMapping (value : Value)
  | settingsNotMapping (path : String)
  | malformedDocument (reason : String)
  | nestedTooDeeply
  | noTruthWord (value : Value)
  | notMoment (value : Value)
  | momentNotText
  | misfit (reason : Misfit)
  | codeTooLarge
  | codeBeyondWords
  | noFileName
  | fileNameNotText (value : Value)
  | fileNameWithNull
  /-- As for the name of a track. -/
  | fileNameUnencodable (code : Nat) (first last : Nat)
  | fileNumberNegative
  | fileNumberUnused
  | missingDirectory (path : String)
  | directoryNotFile (path : String)
  | fileNotDirectory (path : String)
  | pathTooLong (path : String)
  deriving Repr

namespace Fault

/-- Whether the values that the wording of a cause shows can be written. -/
def isWritable : Fault → Bool
  | tempoNotNumber v | tempoOutOfRange v | unknownRestTable v | markerNotSingle v => v.isWritable
  | unitTooShort n | channelOutOfRange n | noteOutOfRange n => Decimal.isWritable n
  | _ => true

/-- The sort of a cause. -/
def kind (f : Fault) : FaultKind :=
  if !f.isWritable then .invalidValue
  else
    match f with
    | tempoNotNumber _ | tempoOutOfRange _ => .invalidTempo
    | notAnInteger _ | restTableNotName _ | markerWithoutLength _ | nameNotText _
    | fileNameNotText _ | momentNotText => .wrongShape
    | markerNotText _ | sectionNotMapping _ | notMoment _ => .missingPart
    | integerOfInfinite | numberTooLarge | codeBeyondWords => .overflow
    | noTruthWord _ => .missingKey
    | emptyNumber => .missingIndex
    | missingDirectory _ => .missingFile
    | directoryNotFile _ => .directory
    | fileNotDirectory _ => .notDirectory
    | pathTooLong _ | fileNumberUnused => .system
    | nameUnencodable .. | fileNameUnencodable .. => .unencodable
    | resolutionTooLarge | trackTooLong => .unpackable
    | malformedDocument _ => .malformedDocument
    | nestedTooDeeply => .nesting
    | _ => .invalidValue

/-- Which code points cannot be encoded: one, by its number, or a run of several. -/
def unencodable (code first last : Nat) : String :=
  if first == last then
    "character '" ++ String.ofList (Quoted.byNumber code) ++ "' in position " ++ toString first
  else "characters in position " ++ toString first ++ "-" ++ toString last

/-- At most the first two hundred characters of a text. -/
def shortened (text : String) : String := String.ofList (text.toList.take 200)

/-- The wording of a cause whose values can be written. -/
def wording : Fault → String
  | unknownLetter letter => "Unknown pitch letter: " ++ quoted letter
  | unknownNoteName name =>
    "Unknown note name: " ++ quoted name ++ ". Expected e.g. 'C4', 'F#5', 'Bb3'."
  | longKeyboardKey key =>
    "Keyboard table keys must be single characters, got " ++ quoted key
  | malformedInteger base value =>
    "invalid literal for int() with base " ++ toString base ++ ": " ++ shortened value.written
  | tooManyDigits digits =>
    "Exceeds the limit (4300 digits) for integer string conversion: value has " ++
      toString digits ++ " digits; use sys.set_int_max_str_digits() to increase the limit"
  | integerOfUndefined => "cannot convert float NaN to integer"
  | integerOfInfinite => "cannot convert float infinity to integer"
  | notAnInteger value => "not an integer: " ++ value.written
  | numberTooLarge => "int too large to convert to float"
  | malformedNumber value => "could not convert string to float: " ++ value.written
  | emptyNumber => "a number without digits"
  | unwritableInteger =>
    "Exceeds the limit (4300 digits) for integer string conversion; " ++
      "use sys.set_int_max_str_digits() to increase the limit"
  | tempoNotNumber value => "Tempo must be a number of beats per minute, got " ++ value.written
  | tempoOutOfRange value => "Tempo must be positive and finite, got " ++ value.written
  | noSteps => "Duration policy needs at least one step"
  | stepsGetLonger => "Duration policy steps must not get longer as the unit grows"
  | unitTooShort length => "Unit length must be at least 1, got " ++ toString length
  | longRestKey key => "Rest table keys must be single characters, got " ++ quoted key
  | unknownRestTable name =>
    "Unknown rest table: " ++ name.written ++ ". Expected one of ['extended', 'standard']."
  | restTableNotName value => "not the name of a rest table: " ++ value.written
  | markerNotSingle marker =>
    "Grammar markers must be single non-space characters, got " ++ marker.written
  | markerWithoutLength marker => "a marker without length: " ++ marker.written
  | markerNotText marker => "a marker that is not a text: " ++ marker.written
  | markersNotDistinct markers =>
    "Grammar markers must be distinct, got " ++ bracketed "(" ")" (markers.map Value.written)
  | velocityOutOfRange velocity =>
    "Velocities are normalised to 0.0-1.0, got " ++ Decimal.plain velocity
  | markerIsRest marker =>
    "Marker " ++ quoted (String.singleton marker) ++ " is also a rest character"
  | markerIsPitch marker =>
    "Marker " ++ quoted (String.singleton marker) ++ " is also a pitch character"
  | emptyChord => "A chord needs at least one pitch"
  | repeatedStrike names =>
    "A chord cannot strike the same note twice: " ++ String.intercalate " " names
  | resolutionNotPositive => "Ticks per beat must be positive"
  | channelOutOfRange channel => "MIDI channel must be 0-15, got " ++ toString channel
  | emptyNote => "A note needs at least one pitch"
  | noteOutOfRange number => "MIDI note out of range: " ++ toString number
  | microsecondsOutOfRange => "attribute must be in range 0..16777215"
  | resolutionTooLarge => "ticks per beat do not fit in 16 bits"
  | trackTooLong => "the length of a track does not fit in 32 bits"
  | nameNotText value => "a track name that is not a text: " ++ value.written
  | nameUnencodable code first last =>
    "'latin-1' codec can't encode " ++ unencodable code first last ++ ": ordinal not in range(256)"
  | startNegative => "Note start cannot be negative"
  | lengthNotPositive => "Note duration must be positive"
  | sectionNotMapping value => "a section that is not a mapping: " ++ value.written
  | settingsNotMapping path =>
    "Config file " ++ path ++ " must contain a mapping at the top level"
  | malformedDocument reason => reason
  | nestedTooDeeply => "nested too deeply"
  | noTruthWord value => "not a truth value: " ++ value.written
  | notMoment value => "not a date: " ++ value.written
  | momentNotText => "a date that is not a text"
  | misfit reason => reason.message
  | codeTooLarge => "chr() arg not in range(0x110000)"
  | codeBeyondWords => "the number of a character does not fit a word"
  | noFileName => "requires filename or file"
  | fileNameNotText value => "a file name that is not a text: " ++ value.written
  | fileNameWithNull => "embedded null byte"
  | fileNameUnencodable code first last =>
    "'utf-8' codec can't encode " ++ unencodable code first last ++ ": surrogates not allowed"
  | fileNumberNegative => "negative file descriptor"
  | fileNumberUnused => "no open file has that number"
  | missingDirectory path => "no such file or directory: " ++ quoted path
  | directoryNotFile path => "a directory and not a file: " ++ quoted path
  | fileNotDirectory path => "a file and not a directory: " ++ quoted path
  | pathTooLong path => "too long for a path: " ++ quoted path

/-- The wording of a cause. -/
def message (f : Fault) : String := if f.isWritable then f.wording else wording .unwritableInteger

end Fault

/-- What succeeds in two steps succeeds in both of them. -/
theorem exists_of_bind {ε α β : Type} {x : Except ε α} {f : α → Except ε β} {b : β}
    (h : x >>= f = .ok b) : ∃ a, x = .ok a ∧ f a = .ok b := by
  cases x with
  | error fault => cases h
  | ok a => exact ⟨a, rfl, h⟩

/-- Whether a first or a second step failed. -/
theorem of_bind_error {ε α β : Type} {x : Except ε α} {f : α → Except ε β} {fault : ε}
    (failed : x >>= f = .error fault) :
    x = .error fault ∨ ∃ a, x = .ok a ∧ f a = .error fault := by
  cases x with
  | error other =>
    left
    exact congrArg Except.error (Except.error.inj failed)
  | ok a => exact Or.inr ⟨a, rfl, failed⟩

end Keysong
