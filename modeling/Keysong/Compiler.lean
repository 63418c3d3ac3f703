import Keysong.Event
import Keysong.Pacing
import Keysong.Pitch.Keyboard
import Keysong.RestTable
import Keysong.Token

/-!
# Compiling a text

From a text to its events.  Each letter of a word is a note, and each member of a group is a
chord; the notes of a word, and the chords of a group, share a length that follows from how many
of them there are.  Rests stand for themselves wherever they are, and what is neither a rest nor
a pitch is skipped.

## Main Definitions

* `Compiler` — the tables that a text is read by
* `Item`, `Compiler.scan` — what the characters of a word stand for
* `Compiler.wordEvents`, `Compiler.groupEvents` — the events of a token
* `Compiler.compile` — the events of a text
* `Compiler.notices` — what is reported on the way
-/

namespace Keysong

open Keysong.Text

/-- The tables that a text is read by.  No marker is a rest or a pitch. -/
structure Compiler where
  grammar : Grammar
  keyboard : Keyboard
  pacing : Pacing
  rests : RestTable
  markers_free :
    ∀ m ∈ grammar.markers, rests.find? m = none ∧ keyboard.resolve m = none

/-- What a character of a word stands for. -/
inductive Item where
  | rest (duration : NoteValue)
  | struck (pitch : Pitch) (velocity : Float)
  | skipped (character : Char)
  deriving Repr

namespace Item

/-- Whether an item is a letter that sounds. -/
def isStruck : Item → Bool
  | struck .. => true
  | _ => false

/-- The event of an item of a word whose notes have a given length. -/
def event? (duration : NoteValue) : Item → Option Event
  | rest d => some (.rest d)
  | struck pitch velocity => some (.note pitch duration velocity)
  | skipped _ => none

/-- The event of an item of a word without letters. -/
def rest? : Item → Option Event
  | rest d => some (.rest d)
  | _ => none

/-- What is reported on an item. -/
def notices : Item → List Notice
  | skipped c =>
    [⟨.debug, "Skipping unresolvable character " ++ quoted (String.singleton c)⟩]
  | _ => []

end Item

/-- The pitches of a row without those whose note number was there before. -/
def firstStrikes : List Pitch → List Pitch
  | [] => []
  | p :: rest => p :: (firstStrikes rest).filter fun q => q.number ≠ p.number

/-- The largest velocity of a row. -/
def loudest (first : Float) (rest : List Float) : Float :=
  rest.foldl (fun best v => if best < v then v else best) first

/-- Letters that are struck together. -/
abbrev Strikes : Type := List (Pitch × Float)

namespace Strikes

/-- The chord of a row of letters, if there are any. -/
def chord (duration : NoteValue) : Strikes → Except Fault (List Event)
  | [] => .ok []
  | first :: rest => do
    let event ← Event.ofChord (firstStrikes ((first :: rest).map (·.1))) duration
      (loudest first.2 (rest.map (·.2)))
    return [event]

end Strikes

namespace Compiler

/-- What a marker is mistaken for, if it is not free. -/
def markerFault? (keyboard : Keyboard) (rests : RestTable) (m : Char) : Option Fault :=
  if (rests.find? m).isSome then some (.markerIsRest m)
  else if (keyboard.resolve m).isSome then some (.markerIsPitch m)
  else none

theorem markerFault?_eq_none {keyboard : Keyboard} {rests : RestTable} {m : Char}
    (h : markerFault? keyboard rests m = none) :
    rests.find? m = none ∧ keyboard.resolve m = none := by
  unfold markerFault? at h
  split at h
  · cases h
  · split at h
    · cases h
    · simp_all

/-- The compiler of four tables.  The markers are looked at in order. -/
def ofTables (grammar : Grammar) (keyboard : Keyboard) (pacing : Pacing) (rests : RestTable) :
    Except Fault Compiler :=
  match taken : grammar.markers.findSome? (markerFault? keyboard rests) with
  | some fault => .error fault
  | none =>
    .ok { grammar, keyboard, pacing, rests
          markers_free := fun m hm =>
            markerFault?_eq_none (List.findSome?_eq_none_iff.1 taken m hm) }

/-- The compiler of the standard tables. -/
def standard : Compiler where
  grammar := .standard
  keyboard := .letters
  pacing := .standard
  rests := .standard
  markers_free := by
    simp only [Grammar.markers, Grammar.standard, Option.toList_some, List.cons_append,
      List.nil_append, List.mem_cons, List.not_mem_nil, or_false, forall_eq_or_imp, forall_eq]
    decide

/-- The velocity that the case of a letter asks for. -/
def velocity (c : Compiler) (letter : Char) : Float := c.grammar.velocityOf (isCapital letter)

/-- What the characters of a word stand for.  Rests come before pitches, and a marker directly
behind a letter belongs to it. -/
def scan (c : Compiler) : List Char → List Item
  | [] => []
  | x :: rest =>
    match c.rests.find? x with
    | some d => .rest d :: scan c rest
    | none =>
      match c.keyboard.resolve x with
      | none => .skipped x :: scan c rest
      | some p =>
        match rest with
        | [] => [.struck p (c.velocity x)]
        | m :: behind =>
          if some m = c.grammar.raiseMarker then .struck (p.shifted 1) (c.velocity x) :: scan c behind
          else if some m = c.grammar.lowerMarker then
            .struck (p.shifted (-1)) (c.velocity x) :: scan c behind
          else .struck p (c.velocity x) :: scan c (m :: behind)

/-- The events of a word.  Without a single letter only its rests are left. -/
def wordEvents (c : Compiler) (word : List Char) : Except Fault (List Event) :=
  let items := c.scan word
  let letters := items.countP Item.isStruck
  if letters = 0 then .ok (items.filterMap Item.rest?)
  else do
    let duration ← c.pacing.durationFor letters
    return items.filterMap (Item.event? duration)

/-- The events of a row of items in a group, with the letters struck so far.  A rest closes the
chord before it. -/
def memberEvents (duration : NoteValue) : Strikes → List Item → Except Fault (List Event)
  | pending, [] => pending.chord duration
  | pending, .rest d :: items => do
    let before ← pending.chord duration
    let behind ← memberEvents duration [] items
    return before ++ .rest d :: behind
  | pending, .struck pitch velocity :: items =>
    memberEvents duration (pending ++ [(pitch, velocity)]) items
  | pending, .skipped _ :: items => memberEvents duration pending items

/-- The events of a group: those of its members, which share a length. -/
def groupEvents (c : Compiler) (members : List (List Char)) : Except Fault (List Event) :=
  if members = [] then .ok []
  else do
    let duration ← c.pacing.durationFor members.length
    let parts ← members.mapM fun member => memberEvents duration [] (c.scan member)
    return parts.flatten

/-- The events of a token. -/
def tokenEvents (c : Compiler) : Token → Except Fault (List Event)
  | .word letters => c.wordEvents letters
  | .group members => c.groupEvents members

/-- The events of a text. -/
def compile (c : Compiler) (text : List Char) : Except Fault (List Event) := do
  let parts ← (tokens c.grammar text).mapM c.tokenEvents
  return parts.flatten

/-- The words that a token is scanned by. -/
def wordsOf : Token → List (List Char)
  | .word letters => [letters]
  | .group members => members

/-- What is reported while a text is compiled into a number of events. -/
def notices (c : Compiler) (text : List Char) (events : Nat) : List Notice :=
  tokenNotices c.grammar text
    ++ ((tokens c.grammar text).flatMap wordsOf).flatMap
        (fun word => (c.scan word).flatMap Item.notices)
    ++ [⟨.debug, "Compiled " ++ toString text.length ++ " characters into " ++ toString events ++
        " events"⟩]

end Compiler

end Keysong
