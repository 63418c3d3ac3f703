import Keysong.Proofs.Compiling

/-!
# Words, position by position

A word is read from left to right.  The reader looks one character ahead, and passes over what it
has looked at if that is the accidental of a letter.  What comes out is what every position says by
itself: a rest stands for itself, a letter is a note that is moved by the character behind it, and
anything else is nothing.

## Main Definitions

* `Grammar.shiftBy` — how far a character moves the letter in front of it
* `Compiler.isRest`, `Compiler.isLetter` — the characters that become events
* `Compiler.eventAt` — the event at a position of a word
* `Compiler.eventsAt` — the events at all its positions

## Main Statements

* `filterMap_scan` — what is read from a word are the events at its positions
* `word_by_positions` — so are the events of a word, one for every rest and every letter

### Why nothing is lost

A character that is passed over is a marker.  The tables of a compiler leave its markers free, so
there is no event at the position of a marker, whether it stands behind a letter or anywhere else.
-/

namespace Keysong

/-- How far the character behind a letter moves it, in semitones. -/
def Grammar.shiftBy (g : Grammar) : Option Char → Int
  | none => 0
  | some m => if some m = g.raiseMarker then 1 else if some m = g.lowerMarker then -1 else 0

namespace Compiler

/-- Whether a character is a rest. -/
def isRest (c : Compiler) (x : Char) : Bool := (c.rests.find? x).isSome

/-- Whether a character is a letter: a pitch that is no rest. -/
def isLetter (c : Compiler) (x : Char) : Bool := !c.isRest x && (c.keyboard.resolve x).isSome

/-- The event at a position of a word, if its letters have a given length. -/
def eventAt (c : Compiler) (duration : NoteValue) (word : List Char) (i : Nat) : Option Event :=
  match word[i]? with
  | none => none
  | some x =>
    match c.rests.find? x, c.keyboard.resolve x with
    | some d, _ => some (.rest d)
    | none, none => none
    | none, some p =>
      let velocity :=
        if c.grammar.caseDynamics then
          if Text.isCapital x then c.grammar.accent else c.grammar.soft
        else c.grammar.level
      some (.note (p.shifted (c.grammar.shiftBy word[i + 1]?)) duration velocity)

/-- The events at the positions of a word, in order. -/
def eventsAt (c : Compiler) (duration : NoteValue) (word : List Char) : List Event :=
  (List.range word.length).filterMap (c.eventAt duration word)

section Reading

variable {c : Compiler} {duration : NoteValue} {x : Char} {rest : List Char}

/-- The first position comes first, and the others are those of the rest of the word. -/
theorem eventsAt_cons (c : Compiler) (duration : NoteValue) (x : Char) (rest : List Char) :
    c.eventsAt duration (x :: rest) =
      (c.eventAt duration (x :: rest) 0).toList ++ c.eventsAt duration rest := by
  have later : c.eventAt duration (x :: rest) ∘ Nat.succ = c.eventAt duration rest := rfl
  unfold eventsAt
  rw [List.length_cons, List.range_succ_eq_map, List.filterMap_cons, List.filterMap_map, later]
  cases c.eventAt duration (x :: rest) 0 with
  | none => rfl
  | some e => rfl

theorem eventAt_rest {d : NoteValue} (found : c.rests.find? x = some d) :
    c.eventAt duration (x :: rest) 0 = some (.rest d) := by
  unfold eventAt
  rw [List.getElem?_cons_zero]
  simp only [found]

theorem eventAt_skipped (noRest : c.rests.find? x = none) (noPitch : c.keyboard.resolve x = none) :
    c.eventAt duration (x :: rest) 0 = none := by
  unfold eventAt
  rw [List.getElem?_cons_zero]
  simp only [noRest, noPitch]

theorem eventAt_letter {p : Pitch} (noRest : c.rests.find? x = none)
    (found : c.keyboard.resolve x = some p) :
    c.eventAt duration (x :: rest) 0 =
      some (.note (p.shifted (c.grammar.shiftBy rest.head?)) duration (c.velocity x)) := by
  have behind : (x :: rest)[0 + 1]? = rest.head? := List.head?_eq_getElem?.symm
  unfold eventAt
  rw [behind, List.getElem?_cons_zero]
  simp only [noRest, found]
  rfl

theorem mem_markers_of_raiseMarker {m : Char} (raises : some m = c.grammar.raiseMarker) :
    m ∈ c.grammar.markers := by
  simp [Grammar.markers, ← raises]

theorem mem_markers_of_lowerMarker {m : Char} (lowers : some m = c.grammar.lowerMarker) :
    m ∈ c.grammar.markers := by
  simp [Grammar.markers, ← lowers]

/-- There is no event at the position of a marker. -/
theorem eventsAt_marker {m : Char} (marks : m ∈ c.grammar.markers) (behind : List Char) :
    c.eventsAt duration (m :: behind) = c.eventsAt duration behind := by
  obtain ⟨noRest, noPitch⟩ := c.markers_free m marks
  rw [eventsAt_cons, eventAt_skipped noRest noPitch]
  rfl

/-- A marker is neither a rest nor a letter. -/
theorem not_isLetter_of_marker {m : Char} (marks : m ∈ c.grammar.markers) :
    c.isLetter m = false := by
  obtain ⟨-, noPitch⟩ := c.markers_free m marks
  simp [isLetter, noPitch]

theorem shifted_zero (p : Pitch) : p.shifted 0 = p := by
  simp [Pitch.shifted]

/-- **What is read from a word are the events at its positions.** -/
theorem filterMap_scan (c : Compiler) (duration : NoteValue) (word : List Char) :
    (c.scan word).filterMap (Item.event? duration) = c.eventsAt duration word := by
  fun_induction c.scan word with
  | case1 => rfl
  | case2 x rest d found ih =>
    rw [eventsAt_cons, eventAt_rest found, ← ih]
    rfl
  | case3 x rest noRest noPitch ih =>
    rw [eventsAt_cons, eventAt_skipped noRest noPitch, ← ih]
    rfl
  | case4 x noRest p found =>
    rw [eventsAt_cons, eventAt_letter noRest found, List.head?_nil, Grammar.shiftBy, shifted_zero]
    rfl
  | case5 x noRest p found m behind raises ih =>
    have up : c.grammar.shiftBy (some m) = 1 := if_pos raises
    rw [eventsAt_cons, eventAt_letter noRest found, List.head?_cons, up,
      eventsAt_marker (mem_markers_of_raiseMarker raises), ← ih]
    rfl
  | case6 x noRest p found m behind notRaised lowers ih =>
    have down : c.grammar.shiftBy (some m) = -1 := by
      rw [Grammar.shiftBy, if_neg notRaised, if_pos lowers]
    rw [eventsAt_cons, eventAt_letter noRest found, List.head?_cons, down,
      eventsAt_marker (mem_markers_of_lowerMarker lowers), ← ih]
    rfl
  | case7 x noRest p found m behind notRaised notLowered ih =>
    have level : c.grammar.shiftBy (some m) = 0 := by
      rw [Grammar.shiftBy, if_neg notRaised, if_neg notLowered]
    rw [eventsAt_cons, eventAt_letter noRest found, List.head?_cons, level, shifted_zero, ← ih]
    rfl

/-- The letters of a word that sound are its letters. -/
theorem lettersOf_eq (c : Compiler) (word : List Char) :
    c.lettersOf word = word.countP c.isLetter := by
  unfold lettersOf
  fun_induction c.scan word with
  | case1 => rfl
  | case2 x rest d found ih =>
    rw [List.countP_cons, List.countP_cons, ih]
    simp [isLetter, isRest, found, Item.isStruck]
  | case3 x rest noRest noPitch ih =>
    rw [List.countP_cons, List.countP_cons, ih]
    simp [isLetter, isRest, noRest, noPitch, Item.isStruck]
  | case4 x noRest p found => simp [isLetter, isRest, noRest, found, Item.isStruck]
  | case5 x noRest p found m behind raises ih =>
    have passed := not_isLetter_of_marker (mem_markers_of_raiseMarker raises)
    have here : c.isLetter x = true := by simp [isLetter, isRest, noRest, found]
    rw [List.countP_cons, List.countP_cons, List.countP_cons, ih, passed, here]
    simp [Item.isStruck]
  | case6 x noRest p found m behind notRaised lowers ih =>
    have passed := not_isLetter_of_marker (mem_markers_of_lowerMarker lowers)
    have here : c.isLetter x = true := by simp [isLetter, isRest, noRest, found]
    rw [List.countP_cons, List.countP_cons, List.countP_cons, ih, passed, here]
    simp [Item.isStruck]
  | case7 x noRest p found m behind notRaised notLowered ih =>
    rw [List.countP_cons, List.countP_cons, ih]
    simp [isLetter, isRest, noRest, found, Item.isStruck]

/-- There is an event at the position of every rest and of every letter, and nowhere else. -/
theorem length_eventsAt (c : Compiler) (duration : NoteValue) (word : List Char) :
    (c.eventsAt duration word).length = word.countP c.isRest + word.countP c.isLetter := by
  induction word with
  | nil => rfl
  | cons x rest ih =>
    rw [eventsAt_cons, List.length_append, ih, List.countP_cons, List.countP_cons]
    cases found : c.rests.find? x with
    | some d =>
      rw [eventAt_rest found]
      simp [isLetter, isRest, found]
      omega
    | none =>
      cases pitch : c.keyboard.resolve x with
      | none =>
        rw [eventAt_skipped found pitch]
        simp [isLetter, isRest, found, pitch]
      | some p =>
        rw [eventAt_letter found pitch]
        simp [isLetter, isRest, found, pitch]
        omega

end Reading

end Compiler

/-- **The events of a word are the events at its positions.**  Compiling a word never fails: its
letters share the length that the pacing gives for their number, and its events are those that its
positions say one by one, one for every rest and one for every letter. -/
theorem word_by_positions (c : Compiler) (word : List Char) :
    ∃ duration, (0 < word.countP c.isLetter →
        c.pacing.durationFor (word.countP c.isLetter) = .ok duration) ∧
      c.wordEvents word =
        .ok ((List.range word.length).filterMap (c.eventAt duration word)) ∧
      ((List.range word.length).filterMap (c.eventAt duration word)).length =
        word.countP c.isRest + word.countP c.isLetter := by
  refine ⟨c.wordValue word, fun some => ?_, ?_, c.length_eventsAt _ word⟩
  · unfold Compiler.wordValue
    rw [c.lettersOf_eq]
    exact c.pacing.durationFor_of_pos some
  · rw [c.wordEvents_eq, Compiler.eventsOf, c.filterMap_scan]
    rfl

end Keysong
