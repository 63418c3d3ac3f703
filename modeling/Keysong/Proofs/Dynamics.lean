import Keysong.Proofs.MachineNumber
import Keysong.Proofs.Positions
import Mathlib.Data.List.Forall2

/-!
# What letter case carries

Two texts of the same letters, each in either case, are compiled side by side.  The case of a letter
is looked at only where its velocity is chosen, so the two rows of events differ at most in their
velocities, and raising letters to capitals raises velocities if capitals are no softer.

## Main Definitions

* `Event.Alike` — two events that are the same up to their velocities
* `Compiler.Matches` — two characters that a compiler tells apart by their velocity at most
* `Compiler.Carries` — what a relation of velocities has to keep
* `IsRaised` — a character that was perhaps made a capital

## Main Statements

* `emitted_alike`, `scan_alike`, `chordsFrom_alike` — one pass after the other keeps the relation
* `events_alike` — texts whose characters match are compiled into events that are alike
* `case_carries_dynamics` — letters differ from their capitals in dynamics only

### Why one induction is enough

That two rows have the same shape, that they are equal, and that one is nowhere louder than the
other are three relations of velocities: any two, equal ones, and those in order.  All that the
passes ask of such a relation is that it holds of the velocities of matching letters and is kept
where the louder of two velocities is taken, because a chord is as loud as the loudest of its
letters, also of those that strike nothing new.
-/

namespace Keysong

open Keysong.Text

/-- Two events that are the same up to their velocities, which are related. -/
inductive Event.Alike (R : Float → Float → Prop) : Event → Event → Prop where
  | rest (d : NoteValue) : Alike R (.rest d) (.rest d)
  | note (p : Pitch) (d : NoteValue) {v w : Float} (related : R v w) :
    Alike R (.note p d v) (.note p d w)
  | chord (ps : List Pitch) (d : NoteValue) {v w : Float} (related : R v w) :
    Alike R (.chord ps d v) (.chord ps d w)

theorem Event.Alike.imp {R S : Float → Float → Prop} (weaker : ∀ v w, R v w → S v w)
    {e e' : Event} (alike : e.Alike R e') : e.Alike S e' := by
  cases alike with
  | rest d => exact .rest d
  | note p d related => exact .note p d (weaker _ _ related)
  | chord ps d related => exact .chord ps d (weaker _ _ related)

theorem Event.Alike.eq {e e' : Event} (alike : e.Alike (· = ·) e') : e = e' := by
  cases alike with
  | rest d => rfl
  | note p d related => rw [related]
  | chord ps d related => rw [related]

/-- Two characters that a compiler tells apart by their velocity at most. -/
structure Compiler.Matches (c : Compiler) (x y : Char) : Prop where
  marker : ∀ m ∈ c.grammar.markers, x = m ↔ y = m
  blank : isBlank x = isBlank y
  rest : c.rests.find? x = c.rests.find? y
  key : c.keyboard.resolve x = c.keyboard.resolve y

namespace Compiler.Matches

variable {c : Compiler} {x y : Char}

theorem refl (c : Compiler) (x : Char) : c.Matches x x := ⟨fun _ _ => Iff.rfl, rfl, rfl, rfl⟩

theorem opens (same : c.Matches x y) : x = c.grammar.groupOpen ↔ y = c.grammar.groupOpen :=
  same.marker _ List.mem_cons_self

theorem closes (same : c.Matches x y) : x = c.grammar.groupClose ↔ y = c.grammar.groupClose :=
  same.marker _ (List.mem_cons_of_mem _ List.mem_cons_self)

/-- A marker that may be missing is met in both texts or in none. -/
theorem optional (same : c.Matches x y) {marker : Option Char}
    (inside : ∀ m, some m = marker → m ∈ c.grammar.markers) :
    some x = marker ↔ some y = marker := by
  cases marker with
  | none => simp
  | some m => simpa using same.marker m (inside m rfl)

theorem raises (same : c.Matches x y) :
    some x = c.grammar.raiseMarker ↔ some y = c.grammar.raiseMarker :=
  same.optional fun _ => mem_markers_of_raiseMarker

theorem lowers (same : c.Matches x y) :
    some x = c.grammar.lowerMarker ↔ some y = c.grammar.lowerMarker :=
  same.optional fun _ => mem_markers_of_lowerMarker

/-- A letter matches letters of the same key. -/
theorem letter (same : c.Matches x y) {key : Option Pitch} (noRest : c.rests.find? x = none)
    (found : c.keyboard.resolve x = key) :
    c.rests.find? y = none ∧ c.keyboard.resolve y = key :=
  ⟨same.rest.symm.trans noRest, same.key.symm.trans found⟩

end Compiler.Matches

/-- What a relation of velocities has to keep: those of matching characters, and the louder of
two. -/
structure Compiler.Carries (c : Compiler) (S : Char → Char → Prop) (R : Float → Float → Prop) :
    Prop where
  same : ∀ x y, S x y → c.Matches x y
  velocity : ∀ x y, S x y → R (c.velocity x) (c.velocity y)
  louder : ∀ v w, R v w → ∀ v' w', R v' w' →
    R (if v < v' then v' else v) (if w < w' then w' else w)

/-! ## Tokens -/

/-- Words of related characters, and groups of such words. -/
inductive Token.Alike (S : Char → Char → Prop) : Token → Token → Prop where
  | word {s t : List Char} (related : List.Forall₂ S s t) : Alike S (.word s) (.word t)
  | group {ss ts : List (List Char)} (related : List.Forall₂ (List.Forall₂ S) ss ts) :
    Alike S (.group ss) (.group ts)

/-- Readers at the same place of related texts. -/
inductive Reader.Alike (S : Char → Char → Prop) : Reader → Reader → Prop where
  | outside {s t : List Char} (related : List.Forall₂ S s t) : Alike S (.outside s) (.outside t)
  | inside {ss ts : List (List Char)} (members : List.Forall₂ (List.Forall₂ S) ss ts)
    {s t : List Char} (related : List.Forall₂ S s t) : Alike S (.inside ss s) (.inside ts t)

variable {c : Compiler} {S : Char → Char → Prop} {R : Float → Float → Prop}

theorem unlessEmpty_alike {s t : List Char} (related : List.Forall₂ S s t) :
    List.Forall₂ (List.Forall₂ S) (Reader.unlessEmpty s) (Reader.unlessEmpty t) := by
  cases related with
  | nil => exact .nil
  | cons here behind => exact .cons (.cons here behind) .nil

theorem words_alike {ss ts : List (List Char)} (related : List.Forall₂ (List.Forall₂ S) ss ts) :
    List.Forall₂ (Token.Alike S) (ss.map Token.word) (ts.map Token.word) :=
  List.rel_map (fun _ _ word => Token.Alike.word word) related

theorem step_alike (carries : c.Carries S R) {r r' : Reader} (alike : r.Alike S r') {x y : Char}
    (related : S x y) : (r.step c.grammar x).Alike S (r'.step c.grammar y) := by
  have same := carries.same x y related
  cases alike with
  | outside word =>
    simp only [Reader.step, same.opens, same.blank]
    split
    · exact .inside .nil .nil
    · split
      · exact .outside .nil
      · exact .outside (List.rel_append word (.cons related .nil))
  | inside members word =>
    simp only [Reader.step, same.closes, same.blank]
    split
    · exact .outside .nil
    · split
      · exact .inside (List.rel_append members (unlessEmpty_alike word)) .nil
      · exact .inside members (List.rel_append word (.cons related .nil))

theorem emit_alike (carries : c.Carries S R) {r r' : Reader} (alike : r.Alike S r') {x y : Char}
    (related : S x y) :
    List.Forall₂ (Token.Alike S) (r.emit c.grammar x) (r'.emit c.grammar y) := by
  have same := carries.same x y related
  cases alike with
  | outside word =>
    simp only [Reader.emit, same.opens, same.blank]
    split
    · exact words_alike (unlessEmpty_alike word)
    · exact .nil
  | inside members word =>
    simp only [Reader.emit, same.closes]
    split
    · exact .cons (.group (List.rel_append members (unlessEmpty_alike word))) .nil
    · exact .nil

theorem finish_alike {r r' : Reader} (alike : r.Alike S r') :
    List.Forall₂ (Token.Alike S) r.finish r'.finish := by
  cases alike with
  | outside word => exact words_alike (unlessEmpty_alike word)
  | inside members word =>
    exact .cons (.group (List.rel_append members (unlessEmpty_alike word))) .nil

/-- Related texts lead readers to the same place, past related tokens. -/
theorem emitted_alike (carries : c.Carries S R) {s t : List Char} (related : List.Forall₂ S s t)
    {r r' : Reader} (alike : r.Alike S r') :
    List.Forall₂ (Token.Alike S) (r.emitted c.grammar s) (r'.emitted c.grammar t) ∧
      (r.after c.grammar s).Alike S (r'.after c.grammar t) := by
  induction related generalizing r r' with
  | nil => exact ⟨.nil, alike⟩
  | cons here behind ih =>
    obtain ⟨others, last⟩ := ih (step_alike carries alike here)
    exact ⟨List.rel_append (emit_alike carries alike here) others, last⟩

theorem tokens_alike (carries : c.Carries S R) {s t : List Char} (related : List.Forall₂ S s t) :
    List.Forall₂ (Token.Alike S) (tokens c.grammar s) (tokens c.grammar t) := by
  obtain ⟨within, last⟩ := emitted_alike carries related (.outside .nil)
  exact List.rel_append within (finish_alike last)

/-! ## Words -/

/-- Items that are the same up to velocities, which are related. -/
inductive Item.Alike (R : Float → Float → Prop) : Item → Item → Prop where
  | rest (d : NoteValue) : Alike R (.rest d) (.rest d)
  | struck (p : Pitch) {v w : Float} (related : R v w) : Alike R (.struck p v) (.struck p w)
  | skipped (x y : Char) : Alike R (.skipped x) (.skipped y)

namespace Compiler

variable {x : Char} {rest : List Char}

theorem scan_rest {d : NoteValue} (found : c.rests.find? x = some d) :
    c.scan (x :: rest) = .rest d :: c.scan rest := by
  simp [scan, found]

theorem scan_skipped (noRest : c.rests.find? x = none) (noKey : c.keyboard.resolve x = none) :
    c.scan (x :: rest) = .skipped x :: c.scan rest := by
  simp [scan, noRest, noKey]

theorem scan_last {p : Pitch} (noRest : c.rests.find? x = none)
    (found : c.keyboard.resolve x = some p) : c.scan [x] = [.struck p (c.velocity x)] := by
  simp [scan, noRest, found]

/-- A letter and what follows it: a marker that belongs to it, or something else. -/
theorem scan_letter {p : Pitch} (noRest : c.rests.find? x = none)
    (found : c.keyboard.resolve x = some p) (m : Char) :
    c.scan (x :: m :: rest) =
      if some m = c.grammar.raiseMarker then .struck (p.shifted 1) (c.velocity x) :: c.scan rest
      else if some m = c.grammar.lowerMarker then
        .struck (p.shifted (-1)) (c.velocity x) :: c.scan rest
      else .struck p (c.velocity x) :: c.scan (m :: rest) := by
  rw [scan]
  simp only [noRest, found]

end Compiler

/-- Related words are scanned into items that are alike. -/
theorem scan_alike (carries : c.Carries S R) {s t : List Char} (related : List.Forall₂ S s t) :
    List.Forall₂ (Item.Alike R) (c.scan s) (c.scan t) := by
  fun_induction c.scan s generalizing t with
  | case1 =>
    obtain rfl := List.forall₂_nil_left_iff.mp related
    exact .nil
  | case2 x rest d found ih =>
    obtain ⟨y, rest', here, behind, rfl⟩ := List.forall₂_cons_left_iff.mp related
    rw [(carries.same x y here).rest] at found
    rw [Compiler.scan_rest found]
    exact .cons (.rest d) (ih behind)
  | case3 x rest noRest noKey ih =>
    obtain ⟨y, rest', here, behind, rfl⟩ := List.forall₂_cons_left_iff.mp related
    obtain ⟨noRest, noKey⟩ := (carries.same x y here).letter noRest noKey
    rw [Compiler.scan_skipped noRest noKey]
    exact .cons (.skipped x y) (ih behind)
  | case4 x noRest p found =>
    obtain ⟨y, rest', here, behind, rfl⟩ := List.forall₂_cons_left_iff.mp related
    obtain rfl := List.forall₂_nil_left_iff.mp behind
    obtain ⟨noRest, found⟩ := (carries.same x y here).letter noRest found
    rw [Compiler.scan_last noRest found]
    exact .cons (.struck p (carries.velocity x y here)) .nil
  | case5 x noRest p found m rest raised ih =>
    obtain ⟨y, behind', here, behind, rfl⟩ := List.forall₂_cons_left_iff.mp related
    obtain ⟨n, rest', next, others, rfl⟩ := List.forall₂_cons_left_iff.mp behind
    obtain ⟨noRest, found⟩ := (carries.same x y here).letter noRest found
    rw [(carries.same m n next).raises] at raised
    rw [Compiler.scan_letter noRest found, if_pos raised]
    exact .cons (.struck _ (carries.velocity x y here)) (ih others)
  | case6 x noRest p found m rest notRaised lowered ih =>
    obtain ⟨y, behind', here, behind, rfl⟩ := List.forall₂_cons_left_iff.mp related
    obtain ⟨n, rest', next, others, rfl⟩ := List.forall₂_cons_left_iff.mp behind
    obtain ⟨noRest, found⟩ := (carries.same x y here).letter noRest found
    rw [(carries.same m n next).raises] at notRaised
    rw [(carries.same m n next).lowers] at lowered
    rw [Compiler.scan_letter noRest found, if_neg notRaised, if_pos lowered]
    exact .cons (.struck _ (carries.velocity x y here)) (ih others)
  | case7 x noRest p found m rest notRaised notLowered ih =>
    obtain ⟨y, behind', here, behind, rfl⟩ := List.forall₂_cons_left_iff.mp related
    obtain ⟨n, rest', next, others, rfl⟩ := List.forall₂_cons_left_iff.mp behind
    obtain ⟨noRest, found⟩ := (carries.same x y here).letter noRest found
    rw [(carries.same m n next).raises] at notRaised
    rw [(carries.same m n next).lowers] at notLowered
    rw [Compiler.scan_letter noRest found, if_neg notRaised, if_neg notLowered]
    exact .cons (.struck p (carries.velocity x y here)) (ih behind)

/-! ## Events -/

theorem countP_alike {items items' : List Item} (alike : List.Forall₂ (Item.Alike R) items items') :
    items.countP Item.isStruck = items'.countP Item.isStruck := by
  induction alike with
  | nil => rfl
  | cons here behind ih =>
    rw [List.countP_cons, List.countP_cons, ih]
    cases here with
    | rest d => rfl
    | struck p related => rfl
    | skipped x y => rfl

theorem event?_alike (d : NoteValue) {item item' : Item} (alike : item.Alike R item') :
    Option.Rel (Event.Alike R) (item.event? d) (item'.event? d) := by
  cases alike with
  | rest d' => exact .some (.rest d')
  | struck p related => exact .some (.note p d related)
  | skipped x y => exact .none

/-- Strikes of the same pitches with related velocities. -/
def Strikes.Alike (R : Float → Float → Prop) (strikes strikes' : Strikes) : Prop :=
  List.Forall₂ (fun s s' : Pitch × Float => s.1 = s'.1 ∧ R s.2 s'.2) strikes strikes'

theorem Strikes.Alike.map_fst {strikes strikes' : Strikes} (alike : strikes.Alike R strikes') :
    strikes.map (·.1) = strikes'.map (·.1) := by
  rw [← List.forall₂_eq_eq_eq]
  exact List.rel_map (fun _ _ same => same.1) alike

/-- The loudest of a row of velocities is related to the loudest of the other row. -/
theorem loudest_alike (carries : c.Carries S R) {first first' : Float} (here : R first first')
    {vs ws : List Float} (behind : List.Forall₂ R vs ws) :
    R (loudest first vs) (loudest first' ws) :=
  List.rel_foldl (fun v w best v' w' next => carries.louder v w best v' w' next) here behind

theorem struckChord_alike (carries : c.Carries S R) (d : NoteValue) {strikes strikes' : Strikes}
    (alike : strikes.Alike R strikes') :
    List.Forall₂ (Event.Alike R) (strikes.struckChord d) (strikes'.struckChord d) := by
  have pitches : strikes.pitches = strikes'.pitches := congrArg firstStrikes alike.map_fst
  cases alike with
  | nil => exact .nil
  | cons here behind =>
    refine .cons ?_ .nil
    rw [pitches]
    exact .chord _ d (loudest_alike carries here.2 (List.rel_map (fun _ _ same => same.2) behind))

theorem chordsFrom_alike (carries : c.Carries S R) (d : NoteValue) {items items' : List Item}
    (alike : List.Forall₂ (Item.Alike R) items items') {pending pending' : Strikes}
    (before : pending.Alike R pending') :
    List.Forall₂ (Event.Alike R) (chordsFrom d pending items) (chordsFrom d pending' items') := by
  induction alike generalizing pending pending' with
  | nil => exact struckChord_alike carries d before
  | cons here behind ih =>
    cases here with
    | rest d' =>
      exact List.rel_append (struckChord_alike carries d before) (.cons (.rest d') (ih .nil))
    | struck p related => exact ih (List.rel_append before (.cons ⟨rfl, related⟩ .nil))
    | skipped x y => exact ih before

theorem eventsOf_alike (carries : c.Carries S R) {t t' : Token} (alike : t.Alike S t') :
    List.Forall₂ (Event.Alike R) (c.eventsOf t) (c.eventsOf t') := by
  cases alike with
  | @word s t related =>
    have scanned := scan_alike carries related
    have value : c.wordValue s = c.wordValue t := congrArg c.pacing.valueFor (countP_alike scanned)
    show List.Forall₂ _ ((c.scan s).filterMap (Item.event? (c.wordValue s))) _
    rw [value]
    exact List.rel_filterMap (fun _ _ alike => event?_alike _ alike) scanned
  | @group ss ts related =>
    have value : c.groupValue ss = c.groupValue ts :=
      congrArg c.pacing.valueFor (List.Forall₂.length_eq related)
    show List.Forall₂ _ (ss.flatMap fun member => chordsFrom (c.groupValue ss) [] _) _
    rw [value]
    exact List.rel_flatMap related
      fun _ _ member => chordsFrom_alike carries _ (scan_alike carries member) .nil

/-- **Texts of related characters are compiled into events that are alike.** -/
theorem events_alike (carries : c.Carries S R) {s t : List Char} (related : List.Forall₂ S s t) :
    List.Forall₂ (Event.Alike R) (c.events s) (c.events t) :=
  List.rel_flatMap (tokens_alike carries related) fun _ _ token => eventsOf_alike carries token

/-! ## Letters and their capitals -/

/-- Letters and their small forms are one key of the standard keyboard. -/
theorem exists_key_of_isAlpha {x : Char} (letter : x.isAlpha = true) :
    (Keyboard.letters.resolve x).isSome = true ∧
      Keyboard.letters.resolve x.toLower = Keyboard.letters.resolve x := by
  refine forall_isAlpha (P := fun x => (Keyboard.letters.resolve x).isSome = true ∧
    Keyboard.letters.resolve x.toLower = Keyboard.letters.resolve x) ?_ letter
  decide +kernel

theorem isCapital_of_isAlpha {x : Char} (letter : x.isAlpha = true) :
    isCapital x = x.isUpper := by
  refine forall_isAlpha (P := fun x => isCapital x = x.isUpper) ?_ letter
  decide +kernel

/-- Two characters with one small form are one character or two letters. -/
theorem eq_or_isAlpha {x y : Char} (same : x.toLower = y.toLower) :
    x = y ∨ x.isAlpha = true ∧ y.isAlpha = true := by
  have kinds := congrArg Char.isAlpha same
  rw [Char.isAlpha_toLower_eq_isAlpha, Char.isAlpha_toLower_eq_isAlpha] at kinds
  by_cases letter : x.isAlpha = true
  · exact Or.inr ⟨letter, kinds ▸ letter⟩
  · have noLetter : ¬ y.isAlpha = true := kinds ▸ letter
    left
    rwa [Char.toLower_eq_of_not_isUpper fun upper => letter (by simp [Char.isAlpha, upper]),
      Char.toLower_eq_of_not_isUpper fun upper => noLetter (by simp [Char.isAlpha, upper])] at same

/-- Letters in either case match on the standard keyboard, if no letter is a rest. -/
theorem matches_of_toLower (standard : c.keyboard = .letters)
    (free : ∀ x : Char, x.isAlpha = true → c.rests.find? x = none) {x y : Char}
    (same : x.toLower = y.toLower) : c.Matches x y := by
  rcases eq_or_isAlpha same with rfl | ⟨letter, letter'⟩
  · exact .refl c x
  obtain ⟨found, small⟩ := exists_key_of_isAlpha letter
  obtain ⟨found', small'⟩ := exists_key_of_isAlpha letter'
  -- A marker is no key, so no letter is a marker.
  have noMarker : ∀ {z : Char}, (Keyboard.letters.resolve z).isSome = true →
      ∀ m ∈ c.grammar.markers, z ≠ m := by
    intro z found m mem same
    have none := (c.markers_free m mem).2
    rw [standard, ← same] at none
    rw [none] at found
    cases found
  refine ⟨fun m mem => iff_of_false (noMarker found m mem) (noMarker found' m mem), ?_, ?_, ?_⟩
  · rw [isBlank_of_isAlpha letter, isBlank_of_isAlpha letter']
  · rw [free x letter, free y letter']
  · rw [standard, ← small, ← small', same]

/-- A character that was perhaps made a capital. -/
def IsRaised (x y : Char) : Prop := y = x ∨ y = x.toUpper

theorem IsRaised.toLower {x y : Char} (raised : IsRaised x y) : x.toLower = y.toLower := by
  rcases raised with rfl | rfl
  · rfl
  · exact (Char.toLower_toUpper_eq_toLower x).symm

theorem IsRaised.isCapital {x y : Char} (raised : IsRaised x y) (capital : isCapital x = true) :
    Text.isCapital y = true := by
  rcases raised with rfl | rfl
  · exact capital
  by_cases letter : x.isAlpha = true
  · have upper : x.toUpper.isUpper = true := by rw [Char.isUpper_toUpper_eq_isAlpha, letter]
    rw [isCapital_of_isAlpha (by simp [Char.isAlpha, upper]), upper]
  · rwa [Char.toUpper_eq_of_not_isLower fun lower => letter (by simp [Char.isAlpha, lower])]

/-! ## Velocities in order -/

/-- Two velocities between zero and one, the second no smaller than the first. -/
structure NoLouder (v w : Float) : Prop where
  first : 0 ≤ v ∧ v ≤ 1
  second : 0 ≤ w ∧ w ≤ 1
  le : v ≤ w

open Decimal in
theorem noLouder_refl {v : Float} (unit : 0 ≤ v ∧ v ≤ 1) : NoLouder v v :=
  ⟨unit, unit, (le_iff_rank unit.1 unit.2 unit.1 unit.2).mpr le_rfl⟩

open Decimal in
/-- The louder of two velocities is the one with the larger place. -/
theorem rank_louder {v w : Float} (unit : 0 ≤ v ∧ v ≤ 1) (unit' : 0 ≤ w ∧ w ≤ 1) :
    rank (if v < w then w else v) = max (rank v) (rank w) := by
  have decided := lt_iff_rank unit.1 unit.2 unit'.1 unit'.2
  split
  · rename_i less
    exact (max_eq_right (decided.mp less).le).symm
  · rename_i notLess
    exact (max_eq_left (not_lt.mp (mt decided.mpr notLess))).symm

open Decimal in
/-- The louder of two velocities grows with both. -/
theorem NoLouder.louder {v w v' w' : Float} (best : NoLouder v w) (next : NoLouder v' w') :
    NoLouder (if v < v' then v' else v) (if w < w' then w' else w) := by
  have unit : ∀ {a b : Float}, 0 ≤ a ∧ a ≤ 1 → 0 ≤ b ∧ b ≤ 1 →
      0 ≤ (if a < b then b else a) ∧ (if a < b then b else a) ≤ 1 := by
    intro a b first second
    split
    · exact second
    · exact first
  obtain ⟨low, high⟩ := unit best.first next.first
  obtain ⟨low', high'⟩ := unit best.second next.second
  refine ⟨⟨low, high⟩, ⟨low', high'⟩, (le_iff_rank low high low' high').mpr ?_⟩
  rw [rank_louder best.first next.first, rank_louder best.second next.second]
  exact max_le_max
    ((le_iff_rank best.first.1 best.first.2 best.second.1 best.second.2).mp best.le)
    ((le_iff_rank next.first.1 next.first.2 next.second.1 next.second.2).mp next.le)

/-- A capital is no softer than a small letter, if accents are no softer than what is soft. -/
theorem noLouder_velocityOf {g : Grammar} (accented : g.soft ≤ g.accent) {a b : Bool}
    (raised : a = true → b = true) : NoLouder (g.velocityOf a) (g.velocityOf b) := by
  have unit : ∀ b, 0 ≤ g.velocityOf b ∧ g.velocityOf b ≤ 1 :=
    fun b => g.normal _ (g.velocityOf_mem b)
  cases dynamics : g.caseDynamics with
  | false =>
    have same : g.velocityOf a = g.velocityOf b := by simp [Grammar.velocityOf, dynamics]
    rw [same]
    exact noLouder_refl (unit b)
  | true =>
    cases a with
    | true =>
      rw [raised rfl]
      exact noLouder_refl (unit true)
    | false =>
      cases b with
      | false => exact noLouder_refl (unit false)
      | true =>
        refine ⟨unit false, unit true, ?_⟩
        simpa [Grammar.velocityOf, dynamics] using accented

/-! ## The three relations -/

section Letters

variable (standard : c.keyboard = .letters)
  (free : ∀ x : Char, x.isAlpha = true → c.rests.find? x = none)

include standard free

theorem carries_any : c.Carries (fun x y => x.toLower = y.toLower) fun _ _ => True :=
  ⟨fun _ _ same => matches_of_toLower standard free same, fun _ _ _ => trivial,
    fun _ _ _ _ _ _ => trivial⟩

/-- Without dynamics the velocities of all letters are equal. -/
theorem carries_eq (level : c.grammar.caseDynamics = false) :
    c.Carries (fun x y => x.toLower = y.toLower) (· = ·) := by
  refine ⟨fun _ _ same => matches_of_toLower standard free same, fun x y _ => ?_, ?_⟩
  · simp [Compiler.velocity, Grammar.velocityOf, level]
  · rintro v w rfl v' w' rfl
    rfl

theorem carries_noLouder (accented : c.grammar.soft ≤ c.grammar.accent) :
    c.Carries IsRaised NoLouder :=
  ⟨fun _ _ raised => matches_of_toLower standard free raised.toLower,
    fun _ _ raised => noLouder_velocityOf accented raised.isCapital,
    fun _ _ best _ _ next => best.louder next⟩

end Letters

/-- **Letter case carries dynamics and nothing else.**  On the standard keyboard, if no letter is a
rest, two texts that differ in the case of letters only are compiled into rows of the same events up
to their velocities; without dynamics the rows are equal; and if accents are no softer than what is
soft, raising letters to capitals lowers no velocity. -/
theorem case_carries_dynamics (c : Compiler) (standard : c.keyboard = .letters)
    (free : ∀ x : Char, x.isAlpha = true → c.rests.find? x = none) {s t : List Char}
    (same : s.map Char.toLower = t.map Char.toLower) :
    ∃ events events', c.compile s = .ok events ∧ c.compile t = .ok events' ∧
      List.Forall₂ (Event.Alike fun _ _ => True) events events' ∧
      (c.grammar.caseDynamics = false → events = events') ∧
      (c.grammar.soft ≤ c.grammar.accent → List.Forall₂ IsRaised s t →
        List.Forall₂ (Event.Alike (· ≤ ·)) events events') := by
  have related : List.Forall₂ (fun x y : Char => x.toLower = y.toLower) s t := by
    rw [← List.forall₂_eq_eq_eq, List.forall₂_map_left_iff, List.forall₂_map_right_iff] at same
    exact same
  refine ⟨c.events s, c.events t, c.compile_eq s, c.compile_eq t,
    events_alike (carries_any standard free) related, fun level => ?_, fun accented raised => ?_⟩
  · have equal := events_alike (carries_eq standard free level) related
    rw [← List.forall₂_eq_eq_eq]
    exact equal.imp fun _ _ alike => alike.eq
  · have ordered := events_alike (carries_noLouder standard free accented) raised
    exact ordered.imp fun _ _ alike => alike.imp fun _ _ noLouder => noLouder.le

/-- No letter is a rest of the standard table. -/
theorem find?_standard_of_isAlpha (x : Char) (letter : x.isAlpha = true) :
    RestTable.standard.find? x = none := by
  refine forall_isAlpha (P := fun x => RestTable.standard.find? x = none) ?_ letter
  decide +kernel

/-- A word and a chord some of whose letters are raised. -/
theorem case_carries_dynamics_raised :
    (Compiler.standard.keyboard = .letters ∧
      (∀ x : Char, x.isAlpha = true → Compiler.standard.rests.find? x = none) ∧
      ['c', 'a', 't', ' ', '(', 'g', 'e', ')'].map Char.toLower =
        ['C', 'a', 'T', ' ', '(', 'G', 'e', ')'].map Char.toLower) ∧
      ∃ events events',
        Compiler.standard.compile ['c', 'a', 't', ' ', '(', 'g', 'e', ')'] = .ok events ∧
        Compiler.standard.compile ['C', 'a', 'T', ' ', '(', 'G', 'e', ')'] = .ok events' ∧
        List.Forall₂ (Event.Alike fun _ _ => True) events events' ∧
        List.Forall₂ (Event.Alike (· ≤ ·)) events events' := by
  obtain ⟨events, events', first, second, alike, -, louder⟩ :=
    case_carries_dynamics .standard rfl find?_standard_of_isAlpha
      (s := ['c', 'a', 't', ' ', '(', 'g', 'e', ')'])
      (t := ['C', 'a', 'T', ' ', '(', 'G', 'e', ')']) (by decide)
  refine ⟨⟨rfl, find?_standard_of_isAlpha, by decide⟩, events, events', first, second, alike, ?_⟩
  apply louder
  · show (0.5 : Float) ≤ 1.0
    decide +kernel
  · simp only [IsRaised, List.forall₂_cons, List.Forall₂.nil, and_true]
    decide

end Keysong
