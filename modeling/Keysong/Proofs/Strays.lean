import Keysong.Proofs.Positions
import Keysong.Proofs.TokenLanguage

/-!
# Characters that stand for nothing

A character that is no blank, no marker, no rest and no letter is skipped.  This module shows that
it may as well not be there: without it a text has the same events, wherever the character stood,
amid a word or between two of them, beside a bracket, or in a group that is never closed.

## Main Definitions

* `Compiler.IsStray` — a character that stands for nothing
* `Compiler.Inflects` — a text that begins with the accidental of the letter that ends another
* `Compiler.heard` — what is read from a word, without what is skipped
* `Compiler.eventsFrom` — the events that a text adds to a state of the reader
* `Reader.word` — the word that is being read

## Main Statements

* `scan_append` — a word is read in two parts, unless it is cut in front of an accidental
* `heard_stray` — a word is heard as it is without a stray character
* `compile_stray` — and so is a text

### The two places where a stray character is heard

A marker belongs to the letter directly in front of it, so a character between the two parts them.
And the members of a group share a length that follows from their number, so a character that is a
member by itself makes all of them shorter, although nothing of it sounds.  Everywhere else the
reader puts the character into a word that would be there without it.
-/

namespace Keysong

open Keysong.Text

/-! ## What is heard of a word -/

namespace Item

/-- Whether an item is an event or a part of one. -/
def isHeard : Item → Bool
  | skipped _ => false
  | _ => true

end Item

/-- Chords are made of what is heard. -/
theorem chordsFrom_heard (duration : NoteValue) (pending : Strikes) (items : List Item) :
    chordsFrom duration pending (items.filter Item.isHeard) =
      chordsFrom duration pending items := by
  induction items generalizing pending with
  | nil => rfl
  | cons item items ih =>
    cases item with
    | rest d => exact congrArg (pending.struckChord duration ++ .rest d :: ·) (ih [])
    | struck pitch velocity => exact ih (pending ++ [(pitch, velocity)])
    | skipped x => exact ih pending

namespace Compiler

/-- A character that stands for nothing: it separates nothing, and it is neither a rest nor a
pitch. -/
structure IsStray (c : Compiler) (x : Char) : Prop where
  visible : isBlank x = false
  plain : x ∉ c.grammar.markers
  silent : c.rests.find? x = none
  toneless : c.keyboard.resolve x = none

/-- Whether the second text begins with the accidental of a letter that ends the first. -/
def Inflects (c : Compiler) (s t : List Char) : Prop :=
  ∃ letter marker, s.getLast? = some letter ∧ c.isLetter letter = true ∧ t.head? = some marker ∧
    (some marker = c.grammar.raiseMarker ∨ some marker = c.grammar.lowerMarker)

/-- What is read from a word, without what is skipped. -/
def heard (c : Compiler) (word : List Char) : List Item := (c.scan word).filter Item.isHeard

section Hearing

variable {c : Compiler} {x : Char} {u v : List Char}

/-- The events of a word are those of what is heard of it. -/
theorem eventsOf_word_congr (same : c.heard u = c.heard v) :
    c.eventsOf (.word u) = c.eventsOf (.word v) := by
  have letters (word : List Char) :
      c.lettersOf word = (c.heard word).countP Item.isStruck := by
    unfold lettersOf heard
    rw [List.countP_filter]
    apply List.countP_congr
    intro item _
    cases item <;> simp [Item.isStruck, Item.isHeard]
  have sounding (duration : NoteValue) (word : List Char) :
      (c.scan word).filterMap (Item.event? duration) =
        (c.heard word).filterMap (Item.event? duration) := by
    unfold heard
    rw [List.filterMap_filter]
    apply congrArg (List.filterMap · (c.scan word))
    funext item
    cases item <;> simp [Item.event?, Item.isHeard]
  unfold eventsOf wordValue
  simp only [letters, sounding, same]

/-- The events of a group are those of what is heard of its members. -/
theorem eventsOf_group_congr {members others : List (List Char)}
    (same : members.map c.heard = others.map c.heard) :
    c.eventsOf (.group members) = c.eventsOf (.group others) := by
  have pooled (members : List (List Char)) : c.eventsOf (.group members) =
      (members.map c.heard).flatMap
        (chordsFrom (c.pacing.valueFor (members.map c.heard).length) []) := by
    simp [eventsOf, groupValue, heard, chordsFrom_heard, List.flatMap_map]
  rw [pooled, pooled, same]

theorem Inflects.cons (x : Char) (inflects : c.Inflects u v) : c.Inflects (x :: u) v := by
  obtain ⟨letter, marker, last, sounds, first, marks⟩ := inflects
  exact ⟨letter, marker, by simp [List.getLast?_cons, last], sounds, first, marks⟩

theorem Inflects.append (inflects : c.Inflects u v) (t : List Char) : c.Inflects u (v ++ t) := by
  obtain ⟨letter, marker, last, sounds, first, marks⟩ := inflects
  exact ⟨letter, marker, last, sounds, by simp [List.head?_append, first], marks⟩

/-- **A word is read in two parts**, unless it is cut in front of an accidental. -/
theorem scan_append (apart : ¬ c.Inflects u v) : c.scan (u ++ v) = c.scan u ++ c.scan v := by
  fun_induction c.scan u with
  | case1 => rfl
  | case2 x rest d found ih =>
    rw [List.cons_append, scan, found]
    simp [ih (mt (Inflects.cons x) apart)]
  | case3 x rest noRest noPitch ih =>
    rw [List.cons_append, scan, noRest, noPitch]
    simp [ih (mt (Inflects.cons x) apart)]
  | case4 x noRest p found =>
    -- only here does the first part end with a letter, so only here are the two cut apart
    have sounds : c.isLetter x = true := by simp [isLetter, isRest, noRest, found]
    rw [List.singleton_append, scan, noRest, found]
    cases v with
    | nil => simp [scan]
    | cons m behind =>
      have notRaised : ¬ some m = c.grammar.raiseMarker := fun raises =>
        apart ⟨x, m, rfl, sounds, rfl, Or.inl raises⟩
      have notLowered : ¬ some m = c.grammar.lowerMarker := fun lowers =>
        apart ⟨x, m, rfl, sounds, rfl, Or.inr lowers⟩
      simp [notRaised, notLowered]
  | case5 x noRest p found m behind raises ih =>
    rw [List.cons_append, List.cons_append, scan, noRest, found]
    dsimp only
    rw [if_pos raises, ih (mt (fun later => (later.cons m).cons x) apart), List.cons_append]
  | case6 x noRest p found m behind notRaised lowers ih =>
    rw [List.cons_append, List.cons_append, scan, noRest, found]
    dsimp only
    rw [if_neg notRaised, if_pos lowers,
      ih (mt (fun later => (later.cons m).cons x) apart), List.cons_append]
  | case7 x noRest p found m behind notRaised notLowered ih =>
    have tail := ih (mt (Inflects.cons x) apart)
    rw [List.cons_append] at tail
    rw [List.cons_append, List.cons_append, scan, noRest, found]
    dsimp only
    rw [if_neg notRaised, if_neg notLowered, tail, List.cons_append]

/-- A stray character is no accidental. -/
theorem IsStray.not_inflects (stray : c.IsStray x) (u v : List Char) :
    ¬ c.Inflects u (x :: v) := by
  rintro ⟨letter, marker, -, -, first, raises | lowers⟩
  · obtain rfl := Option.some.inj first
    exact stray.plain (mem_markers_of_raiseMarker raises)
  · obtain rfl := Option.some.inj first
    exact stray.plain (mem_markers_of_lowerMarker lowers)

/-- **A word is heard as it is without a stray character**, unless the character parts a letter from
its accidental. -/
theorem heard_stray (stray : c.IsStray x) (apart : ¬ c.Inflects u v) :
    c.heard (u ++ x :: v) = c.heard (u ++ v) := by
  have skipped : c.scan (x :: v) = .skipped x :: c.scan v := by
    rw [scan, stray.silent, stray.toneless]
  unfold heard
  rw [scan_append (stray.not_inflects u v), scan_append apart, skipped]
  simp [Item.isHeard]

end Hearing

end Compiler

/-! ## The word that is being read -/

namespace Reader

/-- The word that is being read, or the part of a member that is. -/
def word : Reader → List Char
  | outside word => word
  | inside _ word => word

/-- One more character goes on with the word that is being read, or ends it. -/
theorem word_step (g : Grammar) (r : Reader) (c : Char) : (r.step g c).word <:+ r.word ++ [c] := by
  cases r with
  | outside word =>
    unfold step
    dsimp only
    split
    · exact List.nil_suffix
    · split
      · exact List.nil_suffix
      · exact List.suffix_rfl
  | inside members word =>
    unfold step
    dsimp only
    split
    · exact List.nil_suffix
    · split
      · exact List.nil_suffix
      · exact List.suffix_rfl

/-- The word that is being read ends what was read of it before and the text. -/
theorem word_after (g : Grammar) (r : Reader) (text : List Char) :
    (r.after g text).word <:+ r.word ++ text := by
  induction text generalizing r with
  | nil => simp
  | cons c rest ih =>
    obtain ⟨before, whole⟩ := word_step g r c
    apply (ih (r.step g c)).trans
    exact ⟨before, by rw [← List.append_assoc, whole, List.append_assoc, List.singleton_append]⟩

/-- The word that is being read ends the text. -/
theorem word_suffix (g : Grammar) (text : List Char) : (readerAfter g text).word <:+ text :=
  word_after g (outside []) text

end Reader

/-! ## Texts -/

namespace Compiler

/-- The events that a text adds to a state of the reader. -/
def eventsFrom (c : Compiler) (r : Reader) (text : List Char) : List Event :=
  (r.readFrom c.grammar text).flatMap c.eventsOf

section Reading

variable {c : Compiler} {x : Char} {w : List Char}

theorem eventsFrom_cons (c : Compiler) (r : Reader) (x : Char) (rest : List Char) :
    c.eventsFrom r (x :: rest) =
      (r.emit c.grammar x).flatMap c.eventsOf ++ c.eventsFrom (r.step c.grammar x) rest := by
  unfold eventsFrom
  rw [Reader.readFrom_cons, List.flatMap_append]

/-- The events of a text are those of its first part, and those that the rest adds. -/
theorem events_append (c : Compiler) (s t : List Char) :
    c.events (s ++ t) = ((Reader.outside []).emitted c.grammar s).flatMap c.eventsOf ++
      c.eventsFrom (readerAfter c.grammar s) t := by
  unfold events eventsFrom
  rw [Reader.tokens_eq_readFrom, Reader.readFrom, Reader.emitted_append, Reader.after_append,
    List.append_assoc, List.flatMap_append]
  rfl

/-- A word without a character has no events. -/
theorem flatMap_unlessEmpty (c : Compiler) (word : List Char) :
    ((Reader.unlessEmpty word).map Token.word).flatMap c.eventsOf = c.eventsOf (.word word) := by
  unfold Reader.unlessEmpty
  split
  · rename_i empty
    rw [empty]
    rfl
  · simp

/-- A stray character goes on with the word that is being read. -/
theorem IsStray.step (stray : c.IsStray x) (r : Reader) :
    r.emit c.grammar x = [] ∧ r.step c.grammar x =
      match r with
      | .outside word => .outside (word ++ [x])
      | .inside members word => .inside members (word ++ [x]) := by
  have notOpen : x ≠ c.grammar.groupOpen := fun same =>
    stray.plain (same ▸ List.mem_cons_self)
  have notClose : x ≠ c.grammar.groupClose := fun same =>
    stray.plain (same ▸ List.mem_cons_of_mem _ List.mem_cons_self)
  cases r with
  | outside word => simp [Reader.emit, Reader.step, notOpen, stray.visible]
  | inside members word => simp [Reader.emit, Reader.step, notClose, stray.visible]

/-- What is heard of the members before is all that the rest of a group asks of them. -/
theorem eventsFrom_members {members others : List (List Char)}
    (same : members.map c.heard = others.map c.heard) (word text : List Char) :
    c.eventsFrom (.inside members word) text = c.eventsFrom (.inside others word) text := by
  have group (members others : List (List Char)) (last : List (List Char))
      (same : members.map c.heard = others.map c.heard) :
      c.eventsOf (.group (members ++ last)) = c.eventsOf (.group (others ++ last)) :=
    eventsOf_group_congr (by rw [List.map_append, List.map_append, same])
  induction text generalizing members others word with
  | nil =>
    simp only [eventsFrom, Reader.readFrom_nil, Reader.finish, List.flatMap_singleton]
    exact group members others _ same
  | cons ch rest ih =>
    rw [eventsFrom_cons, eventsFrom_cons]
    by_cases closes : ch = c.grammar.groupClose
    · simp [Reader.emit, Reader.step, closes, group members others _ same]
    · cases blank : isBlank ch with
      | true =>
        have longer : (members ++ Reader.unlessEmpty word).map c.heard =
            (others ++ Reader.unlessEmpty word).map c.heard := by
          rw [List.map_append, List.map_append, same]
        simp [Reader.emit, Reader.step, closes, blank, ih longer]
      | false => simp [Reader.emit, Reader.step, closes, blank, ih same]

/-- A word with a stray character has the events that it has without, however the text goes on:
`u` is what was read of the word behind the character. -/
theorem eventsFrom_outside (stray : c.IsStray x) (u text : List Char)
    (apart : ¬ c.Inflects w (u ++ text)) :
    c.eventsFrom (.outside (w ++ x :: u)) text = c.eventsFrom (.outside (w ++ u)) text := by
  have ended (u text : List Char) (apart : ¬ c.Inflects w (u ++ text)) :
      c.eventsOf (.word (w ++ x :: u)) = c.eventsOf (.word (w ++ u)) :=
    eventsOf_word_congr (heard_stray stray (mt (Inflects.append · text) apart))
  induction text generalizing u with
  | nil =>
    simp only [eventsFrom, Reader.readFrom_nil, Reader.finish, flatMap_unlessEmpty]
    exact ended u [] apart
  | cons ch rest ih =>
    rw [eventsFrom_cons, eventsFrom_cons]
    by_cases opens : ch = c.grammar.groupOpen
    · simp [Reader.emit, Reader.step, opens, flatMap_unlessEmpty, ended u _ apart]
    · cases blank : isBlank ch with
      | true =>
        simp [Reader.emit, Reader.step, opens, blank, flatMap_unlessEmpty, ended u _ apart]
      | false =>
        have onward := ih (u ++ [ch]) (by simpa using apart)
        simpa [Reader.emit, Reader.step, opens, blank] using onward

/-- So has a member, as long as there is one without the character. -/
theorem eventsFrom_inside (stray : c.IsStray x) (members : List (List Char)) (u text : List Char)
    (apart : ¬ c.Inflects w (u ++ text))
    (joins : w ++ u ≠ [] ∨ ∃ ch, text.head? = some ch ∧ isBlank ch = false ∧
      ch ≠ c.grammar.groupClose) :
    c.eventsFrom (.inside members (w ++ x :: u)) text =
      c.eventsFrom (.inside members (w ++ u)) text := by
  have ended (u text : List Char) (apart : ¬ c.Inflects w (u ++ text)) (some : w ++ u ≠ []) :
      (members ++ Reader.unlessEmpty (w ++ x :: u)).map c.heard =
        (members ++ Reader.unlessEmpty (w ++ u)).map c.heard := by
    have grown : w ++ x :: u ≠ [] := by simp
    rw [Reader.unlessEmpty_of_ne_nil grown, Reader.unlessEmpty_of_ne_nil some, List.map_append,
      List.map_append, List.map_singleton, List.map_singleton,
      heard_stray stray (mt (Inflects.append · text) apart)]
  induction text generalizing u with
  | nil =>
    have some : w ++ u ≠ [] := joins.resolve_right (by simp)
    simp only [eventsFrom, Reader.readFrom_nil, Reader.finish, List.flatMap_singleton]
    exact eventsOf_group_congr (ended u [] apart some)
  | cons ch rest ih =>
    rw [eventsFrom_cons, eventsFrom_cons]
    by_cases closes : ch = c.grammar.groupClose
    · have some : w ++ u ≠ [] := joins.resolve_right (by simp [closes])
      simpa [Reader.emit, Reader.step, closes] using eventsOf_group_congr (ended u _ apart some)
    · cases blank : isBlank ch with
      | true =>
        have some : w ++ u ≠ [] := joins.resolve_right (by simp [blank])
        simpa [Reader.emit, Reader.step, closes, blank] using
          eventsFrom_members (ended u _ apart some) [] rest
      | false =>
        have onward := ih (u ++ [ch]) (by simpa using apart) (Or.inl (by simp))
        simpa [Reader.emit, Reader.step, closes, blank] using onward

end Reading

end Compiler

/-- **A stray character is not heard.**  A text has the same events with and without it, unless it
parts a letter from its accidental, or is a member of a group by itself: inside of a group, a member
is being read in front of it, or goes on behind it. -/
theorem compile_stray (c : Compiler) {x : Char} (stray : c.IsStray x) (s t : List Char)
    (apart : ¬ c.Inflects s t)
    (joins : (readerAfter c.grammar s).isInside = true →
      (readerAfter c.grammar s).word ≠ [] ∨ ∃ ch, t.head? = some ch ∧ isBlank ch = false ∧
        ch ≠ c.grammar.groupClose) :
    ∃ events, c.compile (s ++ x :: t) = .ok events ∧ c.compile (s ++ t) = .ok events := by
  have wordApart : ¬ c.Inflects (readerAfter c.grammar s).word t := by
    rintro ⟨letter, marker, last, others⟩
    obtain ⟨before, whole⟩ := Reader.word_suffix c.grammar s
    exact apart ⟨letter, marker, by rw [← whole, List.getLast?_append, last]; rfl, others⟩
  refine ⟨c.events (s ++ t), ?_, c.compile_eq _⟩
  rw [c.compile_eq, c.events_append, c.events_append, c.eventsFrom_cons, (stray.step _).1,
    (stray.step _).2]
  apply congrArg (Except.ok ∘ (_ ++ ·))
  rw [List.flatMap_nil, List.nil_append]
  cases reading : readerAfter c.grammar s with
  | outside word =>
    rw [reading] at wordApart
    simpa [Reader.word] using Compiler.eventsFrom_outside stray [] t wordApart
  | inside members word =>
    rw [reading] at wordApart joins
    have some := joins rfl
    simpa [Reader.word] using
      Compiler.eventsFrom_inside stray members [] t wordApart (by simpa [Reader.word] using some)

/-- A digit at the end of the second member of a group that is never closed. -/
theorem compile_stray_open :
    (Compiler.standard.IsStray '7' ∧
      ¬ Compiler.standard.Inflects ['(', 'c', ' ', 'a', '\''] [' ', '\'', 'd'] ∧
      ((readerAfter Grammar.standard ['(', 'c', ' ', 'a', '\'']).isInside = true ∧
        (readerAfter Grammar.standard ['(', 'c', ' ', 'a', '\'']).word ≠ [])) ∧
      ∃ events,
        Compiler.standard.compile ['(', 'c', ' ', 'a', '\'', '7', ' ', '\'', 'd'] = .ok events ∧
        Compiler.standard.compile ['(', 'c', ' ', 'a', '\'', ' ', '\'', 'd'] = .ok events := by
  have stray : Compiler.standard.IsStray '7' := by
    constructor
    · decide
    · decide
    · decide
    · decide
  have apart : ¬ Compiler.standard.Inflects ['(', 'c', ' ', 'a', '\''] [' ', '\'', 'd'] := by
    rintro ⟨letter, marker, last, sounds, -⟩
    obtain rfl := Option.some.inj last
    revert sounds
    decide
  have amid : (readerAfter Grammar.standard ['(', 'c', ' ', 'a', '\'']).word ≠ [] := by decide
  exact ⟨⟨stray, apart, by decide, amid⟩,
    compile_stray .standard stray ['(', 'c', ' ', 'a', '\''] [' ', '\'', 'd'] apart
      fun _ => Or.inl amid⟩

end Keysong
