import Keysong.Compiler

/-!
# What a text is compiled into

The compiler is written with faults, because a length can be too short for a pacing and a chord
can be empty or strike a note twice.  None of them arises from a text.  This module gives the
events of a text without faults, shows that they are what the compiler returns, and says what such
events look like.

## Main Definitions

* `Pacing.valueFor` — the note value for a unit that is not empty
* `Strikes.struckChord`, `chordsFrom` — the chords of a member
* `Compiler.eventsOf`, `Compiler.events` — the events of a token and of a text
* `Compiler.Emits` — what an event of a compiler looks like

## Main Statements

* `Compiler.compile_eq` — compiling gives the events without faults
* `compile_total` — compiling always succeeds, and every event is one that the tables allow

### Where the faults go

A unit has a positive length where its value is looked up: a word is looked up only if a letter of
it sounds, a group only if it has members.  The letters of a chord are never none, because a row of
strikes without letters gives no chord at all, and no number is there twice, because only the first
strike of each number is kept.
-/

namespace Keysong

open Keysong.Text

/-- A traversal none of whose steps fails. -/
theorem mapM_eq_ok_map {α β ε : Type} {f : α → Except ε β} {g : α → β} {xs : List α}
    (h : ∀ x ∈ xs, f x = .ok (g x)) : xs.mapM f = .ok (xs.map g) := by
  induction xs with
  | nil => rfl
  | cons x xs ih =>
    rw [List.mapM_cons, h x List.mem_cons_self,
      ih fun y mem => h y (List.mem_cons_of_mem x mem)]
    rfl

/-! ## Lengths -/

namespace Pacing

/-- The note value for a unit that is not empty. -/
def valueFor (p : Pacing) (length : Nat) : NoteValue :=
  have inside : min length p.ceiling - 1 < p.steps.length := by
    have := p.ceiling_pos
    simp only [ceiling] at *
    omega
  p.steps[min length p.ceiling - 1]

theorem durationFor_of_pos (p : Pacing) {length : Nat} (pos : 0 < length) :
    p.durationFor length = .ok (p.valueFor length) := by
  have notShort : ¬ (length : Int) < 1 := by omega
  simp [durationFor, notShort, valueFor]

theorem valueFor_mem (p : Pacing) (length : Nat) : p.valueFor length ∈ p.durations :=
  List.mem_eraseDups.mpr (List.getElem_mem _)

end Pacing

/-- The length of a rest is one that the table gives. -/
theorem RestTable.mem_durations_of_find? {r : RestTable} {c : Char} {d : NoteValue}
    (h : r.find? c = some d) : d ∈ r.durations := by
  obtain ⟨before, behind, split, -⟩ := List.lookup_eq_some_iff.mp h
  refine List.mem_eraseDups.mpr (List.mem_map.mpr ⟨(c, d), ?_, rfl⟩)
  rw [split]
  exact List.mem_append_right before List.mem_cons_self

/-! ## Chords -/

/-- No number is kept twice: behind a pitch, every other one with its number is dropped. -/
theorem nodup_number_firstStrikes (ps : List Pitch) :
    ((firstStrikes ps).map Pitch.number).Nodup := by
  induction ps with
  | nil => exact List.nodup_nil
  | cons p ps ih =>
    rw [firstStrikes, List.map_cons, List.nodup_cons]
    refine ⟨fun mem => ?_, ?_⟩
    · obtain ⟨q, mem, same⟩ := List.mem_map.mp mem
      have other := (List.mem_filter.mp mem).2
      exact absurd same (by simpa using other)
    · exact ih.sublist (List.filter_sublist.map Pitch.number)

/-- The largest velocity of a row is one of the row. -/
theorem loudest_mem (first : Float) (rest : List Float) : loudest first rest ∈ first :: rest := by
  induction rest generalizing first with
  | nil => exact List.mem_cons_self
  | cons v rest ih =>
    rw [loudest, List.foldl_cons]
    -- the best so far is one of the two, so the rest of the row is searched from either
    by_cases louder : first < v
    · rw [if_pos louder]
      exact List.mem_cons_of_mem first (ih v)
    · rw [if_neg louder]
      rcases List.mem_cons.mp (ih first) with here | behind
      · exact List.mem_cons.mpr (Or.inl here)
      · exact List.mem_cons_of_mem first (List.mem_cons_of_mem v behind)

namespace Strikes

/-- The pitches of a chord: those of its letters, each number at its first place. -/
def pitches (strikes : Strikes) : List Pitch := firstStrikes (strikes.map (·.1))

/-- The chord of a row of letters; none if there are no letters. -/
def struckChord (duration : NoteValue) : Strikes → List Event
  | [] => []
  | first :: rest =>
    [.chord (pitches (first :: rest)) duration (loudest first.2 (rest.map (·.2)))]

theorem chord_eq (duration : NoteValue) (strikes : Strikes) :
    strikes.chord duration = .ok (strikes.struckChord duration) := by
  cases strikes with
  | nil => rfl
  | cons first rest =>
    have accepted : Event.ofChord (pitches (first :: rest)) duration
        (loudest first.2 (rest.map (·.2))) =
          .ok (.chord (pitches (first :: rest)) duration (loudest first.2 (rest.map (·.2)))) :=
      Event.ofChord_eq_ok_iff.mpr
        ⟨⟨by simp [pitches, firstStrikes], nodup_number_firstStrikes _⟩, rfl⟩
    rw [chord]
    exact congrArg (fun result => result >>= fun event => pure [event]) accepted

end Strikes

/-- The events of a row of items in a group, with the letters struck so far. -/
def chordsFrom (duration : NoteValue) : Strikes → List Item → List Event
  | pending, [] => pending.struckChord duration
  | pending, .rest d :: items =>
    pending.struckChord duration ++ .rest d :: chordsFrom duration [] items
  | pending, .struck pitch velocity :: items =>
    chordsFrom duration (pending ++ [(pitch, velocity)]) items
  | pending, .skipped _ :: items => chordsFrom duration pending items

/-! ## Tokens and texts -/

namespace Compiler

theorem memberEvents_eq (duration : NoteValue) (pending : Strikes) (items : List Item) :
    memberEvents duration pending items = .ok (chordsFrom duration pending items) := by
  induction items generalizing pending with
  | nil => exact Strikes.chord_eq duration pending
  | cons item items ih =>
    cases item with
    | rest d =>
      rw [memberEvents, Strikes.chord_eq, ih]
      rfl
    | struck pitch velocity => exact ih _
    | skipped c => exact ih pending

/-- How many letters of a word sound. -/
def lettersOf (c : Compiler) (word : List Char) : Nat := (c.scan word).countP Item.isStruck

/-- The length that the letters of a word share. -/
def wordValue (c : Compiler) (word : List Char) : NoteValue := c.pacing.valueFor (c.lettersOf word)

/-- The length that the members of a group share. -/
def groupValue (c : Compiler) (members : List (List Char)) : NoteValue :=
  c.pacing.valueFor members.length

/-- The events of a token. -/
def eventsOf (c : Compiler) : Token → List Event
  | .word letters => (c.scan letters).filterMap (Item.event? (c.wordValue letters))
  | .group members => members.flatMap fun member =>
      chordsFrom (c.groupValue members) [] (c.scan member)

/-- The events of a text. -/
def events (c : Compiler) (text : List Char) : List Event :=
  (tokens c.grammar text).flatMap c.eventsOf

/-- Where no letter sounds, all that is left of a word are its rests. -/
theorem filterMap_rest?_eq (duration : NoteValue) {items : List Item}
    (h : items.countP Item.isStruck = 0) :
    items.filterMap Item.rest? = items.filterMap (Item.event? duration) := by
  induction items with
  | nil => rfl
  | cons item items ih =>
    cases item with
    | struck pitch velocity => simp [Item.isStruck] at h
    | rest d =>
      have behind := ih (by simpa [Item.isStruck] using h)
      simpa [Item.rest?, Item.event?] using behind
    | skipped c => exact ih (by simpa [Item.isStruck] using h)

theorem wordEvents_eq (c : Compiler) (word : List Char) :
    c.wordEvents word = .ok (c.eventsOf (.word word)) := by
  unfold wordEvents eventsOf
  by_cases none : (c.scan word).countP Item.isStruck = 0
  · simp only [none, if_true]
    rw [filterMap_rest?_eq _ none]
  · have found := c.pacing.durationFor_of_pos (Nat.pos_of_ne_zero none)
    simp only [none, if_false, found]
    rfl

theorem groupEvents_eq (c : Compiler) (members : List (List Char)) :
    c.groupEvents members = .ok (c.eventsOf (.group members)) := by
  by_cases empty : members = []
  · subst empty
    rfl
  · have found := c.pacing.durationFor_of_pos (List.length_pos_iff.mpr empty)
    have parts : members.mapM (fun member =>
        memberEvents (c.groupValue members) [] (c.scan member)) = .ok (members.map fun member =>
          chordsFrom (c.groupValue members) [] (c.scan member)) :=
      mapM_eq_ok_map fun member _ => memberEvents_eq _ _ _
    simp only [groupEvents, empty, if_false, found]
    exact congrArg (fun result => result >>= fun parts => pure parts.flatten) parts

theorem tokenEvents_eq (c : Compiler) (t : Token) : c.tokenEvents t = .ok (c.eventsOf t) := by
  cases t with
  | word letters => exact c.wordEvents_eq letters
  | group members => exact c.groupEvents_eq members

/-- Compiling a text never fails, and gives the events of its tokens. -/
theorem compile_eq (c : Compiler) (text : List Char) : c.compile text = .ok (c.events text) := by
  have parts := mapM_eq_ok_map fun t (_ : t ∈ tokens c.grammar text) => c.tokenEvents_eq t
  rw [compile, parts]
  rfl

/-! ## What events look like -/

/-- A velocity that the grammar gives, between zero and one. -/
def IsVelocity (c : Compiler) (v : Float) : Prop := v ∈ c.grammar.velocities ∧ 0 ≤ v ∧ v ≤ 1

/-- What an event of a compiler looks like. -/
def Emits (c : Compiler) : Event → Prop
  | .rest d => d ∈ c.rests.durations
  | .note _ d v => d ∈ c.pacing.durations ∧ c.IsVelocity v
  | .chord ps d v =>
    (d ∈ c.pacing.durations ∧ c.IsVelocity v) ∧ ps ≠ [] ∧ (ps.map Pitch.number).Nodup

/-- What an item of a word looks like. -/
def Scans (c : Compiler) : Item → Prop
  | .rest d => d ∈ c.rests.durations
  | .struck _ v => c.IsVelocity v
  | .skipped _ => True

theorem isVelocity_velocity (c : Compiler) (letter : Char) : c.IsVelocity (c.velocity letter) :=
  have mem := c.grammar.velocityOf_mem (isCapital letter)
  ⟨mem, c.grammar.normal _ mem⟩

theorem scans_of_mem_scan (c : Compiler) (word : List Char) :
    ∀ item ∈ c.scan word, c.Scans item := by
  fun_induction c.scan word with
  | case1 => simp
  | case2 x rest d found ih =>
    exact List.forall_mem_cons.mpr ⟨RestTable.mem_durations_of_find? found, ih⟩
  | case3 x rest noRest noPitch ih => exact List.forall_mem_cons.mpr ⟨trivial, ih⟩
  | case4 x noRest p found => exact List.forall_mem_singleton.mpr (c.isVelocity_velocity x)
  | case5 x noRest p found m behind raised ih =>
    exact List.forall_mem_cons.mpr ⟨c.isVelocity_velocity x, ih⟩
  | case6 x noRest p found m behind notRaised lowered ih =>
    exact List.forall_mem_cons.mpr ⟨c.isVelocity_velocity x, ih⟩
  | case7 x noRest p found m behind notRaised notLowered ih =>
    exact List.forall_mem_cons.mpr ⟨c.isVelocity_velocity x, ih⟩

theorem emits_of_mem_struckChord {c : Compiler} {duration : NoteValue} {strikes : Strikes}
    (allowed : duration ∈ c.pacing.durations) (velocities : ∀ s ∈ strikes, c.IsVelocity s.2) :
    ∀ e ∈ strikes.struckChord duration, c.Emits e := by
  cases strikes with
  | nil => simp [Strikes.struckChord]
  | cons first rest =>
    intro e mem
    rw [Strikes.struckChord, List.mem_singleton] at mem
    subst mem
    have loud : c.IsVelocity (loudest first.2 (rest.map (·.2))) := by
      have mem : loudest first.2 (rest.map (·.2)) ∈ (first :: rest).map (·.2) :=
        loudest_mem first.2 (rest.map (·.2))
      obtain ⟨s, mem, same⟩ := List.mem_map.mp mem
      exact same ▸ velocities s mem
    exact ⟨⟨allowed, loud⟩, by simp [Strikes.pitches, firstStrikes],
      nodup_number_firstStrikes _⟩

theorem emits_of_mem_chordsFrom {c : Compiler} {duration : NoteValue} {pending : Strikes}
    {items : List Item} (allowed : duration ∈ c.pacing.durations)
    (velocities : ∀ s ∈ pending, c.IsVelocity s.2) (scans : ∀ item ∈ items, c.Scans item) :
    ∀ e ∈ chordsFrom duration pending items, c.Emits e := by
  induction items generalizing pending with
  | nil => exact emits_of_mem_struckChord allowed velocities
  | cons item items ih =>
    obtain ⟨here, behind⟩ := List.forall_mem_cons.mp scans
    cases item with
    | rest d =>
      intro e mem
      rcases List.mem_append.mp mem with mem | mem
      · exact emits_of_mem_struckChord allowed velocities e mem
      · rcases List.mem_cons.mp mem with rfl | mem
        · exact here
        · exact ih (by simp) behind e mem
    | struck pitch velocity =>
      refine ih (fun s mem => ?_) behind
      rcases List.mem_append.mp mem with mem | mem
      · exact velocities s mem
      · rw [List.mem_singleton] at mem
        exact mem ▸ here
    | skipped x => exact ih velocities behind

theorem emits_of_mem_eventsOf (c : Compiler) (t : Token) : ∀ e ∈ c.eventsOf t, c.Emits e := by
  cases t with
  | word letters =>
    intro e mem
    obtain ⟨item, mem, found⟩ := List.mem_filterMap.mp mem
    have scans := c.scans_of_mem_scan letters item mem
    cases item with
    | rest d =>
      cases found
      exact scans
    | struck pitch velocity =>
      cases found
      exact ⟨c.pacing.valueFor_mem _, scans⟩
    | skipped x => cases found
  | group members =>
    intro e mem
    obtain ⟨member, -, mem⟩ := List.mem_flatMap.mp mem
    exact emits_of_mem_chordsFrom (c.pacing.valueFor_mem _) (by simp)
      (c.scans_of_mem_scan member) e mem

end Compiler

/-- **Every text is compiled.**  Whatever the tables and the text, compiling gives events and no
fault; the length of a note or a chord is one of the pacing, the length of a rest one of the table
of rests; a velocity is one of the grammar's and lies between zero and one; and a chord has a pitch
and strikes no number twice. -/
theorem compile_total (c : Compiler) (text : List Char) :
    ∃ events, c.compile text = .ok events ∧ ∀ e ∈ events, c.Emits e := by
  refine ⟨c.events text, c.compile_eq text, fun e mem => ?_⟩
  obtain ⟨t, -, mem⟩ := List.mem_flatMap.mp mem
  exact c.emits_of_mem_eventsOf t e mem

end Keysong
