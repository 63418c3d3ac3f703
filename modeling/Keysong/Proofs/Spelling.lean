import Keysong.Pitch.Name
import Mathlib.Algebra.Group.Nat.Defs
import Mathlib.Data.List.Induction

/-!
# Pitches and their names

A pitch has one spelling, and a name is read in many: blanks around it, a letter in either case,
digits of any script, zeros in front, a minus before a zero.  This module says which texts are names
of which pitches, and that the spelling of a pitch is one of them.

## Main Definitions

* `Pitch.signsOf`, `Pitch.octaveText` — the parts of a name behind its letter
* `Pitch.Names` — the texts that are names of a pitch

## Main Statements

* `digitsValue_toDigits` — the digits of a number are read as the number
* `trim_eq` — what is left between two rows of blanks
* `Pitch.ofName_eq_ok_iff` — a text is read as a pitch if it is one of its names
* `Pitch.names_name` — the spelling of a pitch is one of its names
* `spellings_read_back` — spelling and reading are inverse

### The letter that is also a sign

A small `b` can be the letter or a flat sign.  Nothing has to be tried: the first character behind
the blanks is the letter, whatever it is, and neither a minus nor a digit is a sign, so the signs
are over where the octave begins.
-/

namespace Keysong

open Keysong.Text Keysong.Decimal

/-! ## Digits -/

namespace Text

theorem digit?_digitChar : ∀ d < 10, digit? d.digitChar = some d := by decide +kernel

/-- Digits of any script are not blank. -/
theorem isBlank_of_digit? {c : Char} {d : Nat} (digit : digit? c = some d) : isBlank c = false := by
  have scripts : ∀ first ∈ zeroDigits, ∀ k < 10, Span.anyHolds blankSpans (first + k) = false := by
    decide +kernel
  obtain ⟨first, found, -⟩ := Option.map_eq_some_iff.mp digit
  have inside := List.find?_some found
  rw [Bool.and_eq_true, decide_eq_true_iff, decide_eq_true_iff] at inside
  have here := scripts first (List.mem_of_find?_eq_some found) (c.toNat - first) (by omega)
  rwa [Nat.add_sub_cancel' inside.1] at here

/-- Digits denote a number that has no more digits. -/
theorem digitsValue_lt {digits : List Nat} (decimal : ∀ d ∈ digits, d < 10) :
    digitsValue digits < 10 ^ digits.length := by
  induction digits using List.reverseRecOn with
  | nil => exact Nat.one_pos
  | append_singleton digits d ih =>
    obtain ⟨before, last⟩ := List.forall_mem_append.mp decimal
    have small := last d (List.mem_singleton_self d)
    have large := ih before
    rw [digitsValue_append_singleton, List.length_append, List.length_singleton, Nat.pow_succ]
    omega

/-- **The digits of a number are read as the number.** -/
theorem digitsValue_toDigits (n : Nat) :
    digitsValue ((Nat.toDigits 10 n).filterMap digit?) = n := by
  induction n using Nat.strongRecOn with
  | ind n ih =>
    rcases Nat.lt_or_ge n 10 with small | large
    · rw [Nat.toDigits_of_lt_base small, List.filterMap_cons_some (digit?_digitChar n small)]
      exact Nat.zero_add n
    · have last : n % 10 < 10 := Nat.mod_lt n (by decide)
      rw [Nat.toDigits_of_base_le (by decide) large, List.filterMap_append, List.filterMap_cons_some
        (digit?_digitChar _ last), List.filterMap_nil, digitsValue_append_singleton,
        ih (n / 10) (by omega)]
      omega

theorem isDigit_of_mem_toDigits {n : Nat} : ∀ c ∈ Nat.toDigits 10 n, isDigit c = true := by
  induction n using Nat.strongRecOn with
  | ind n ih =>
    have last (d : Nat) (small : d < 10) : isDigit d.digitChar = true := by
      rw [isDigit, digit?_digitChar d small]
      rfl
    intro c mem
    rcases Nat.lt_or_ge n 10 with small | large
    · rw [Nat.toDigits_of_lt_base small, List.mem_singleton] at mem
      rw [mem]
      exact last n small
    · rw [Nat.toDigits_of_base_le (by decide) large] at mem
      rcases List.mem_append.mp mem with before | here
      · exact ih (n / 10) (by omega) c before
      · rw [List.mem_singleton.mp here]
        exact last _ (Nat.mod_lt n (by decide))

/-! ## Blanks at the ends -/

/-- What is trimmed off are blanks. -/
theorem exists_trim (text : List Char) :
    ∃ before behind, text = before ++ trim text ++ behind ∧ ∀ c ∈ before ++ behind,
      isBlank c = true := by
  have blank (l : List Char) : ∀ c ∈ l.takeWhile isBlank, isBlank c = true := fun c mem =>
    List.all_eq_true.mp List.all_takeWhile c mem
  refine ⟨text.takeWhile isBlank,
    ((text.dropWhile isBlank).reverse.takeWhile isBlank).reverse, ?_, ?_⟩
  · rw [trim, List.append_assoc, ← List.reverse_append, List.takeWhile_append_dropWhile,
      List.reverse_reverse, List.takeWhile_append_dropWhile]
  · intro c mem
    rcases List.mem_append.mp mem with mem | mem
    · exact blank _ c mem
    · exact blank _ c (List.mem_reverse.mp mem)

/-- What is left between two rows of blanks, if it neither starts nor ends with one. -/
theorem trim_eq {before behind mid : List Char} {first last : Char}
    (blank : ∀ c ∈ before ++ behind, isBlank c = true) (starts : isBlank first = false)
    (ends : isBlank last = false) (same : ∃ front, first :: mid = front ++ [last]) :
    trim (before ++ first :: mid ++ behind) = first :: mid := by
  obtain ⟨front, same⟩ := same
  obtain ⟨before', behind'⟩ := List.forall_mem_append.mp blank
  have reversed : ∀ c ∈ behind.reverse, isBlank c = true := fun c mem =>
    behind' c (List.mem_reverse.mp mem)
  rw [trim, List.append_assoc, List.dropWhile_append_of_pos before', List.cons_append,
    List.dropWhile_cons_of_neg (by simp [starts]), ← List.cons_append, List.reverse_append,
    List.dropWhile_append_of_pos reversed, same, List.reverse_append, List.reverse_singleton,
    List.singleton_append, List.dropWhile_cons_of_neg (by simp [ends]), List.reverse_cons,
    List.reverse_reverse]

end Text

namespace Pitch

/-! ## The parts of a name -/

/-- The signs of an accidental. -/
def signsOf (accidental : Int) : List Char :=
  List.replicate accidental.natAbs (if accidental < 0 then 'b' else '#')

/-- The octave of a name. -/
def octaveText (negative : Bool) (digits : List Char) : List Char :=
  if negative then '-' :: digits else digits

/-- The texts that are names of a pitch: blanks, a letter in either case, at most two equal signs,
a minus or none, some digits of any script but not too many, and blanks. -/
inductive Names : List Char → Pitch → Prop
  | intro {before digits behind : List Char} {first : Char} {letter : Letter} {accidental : Int}
      (negative : Bool) (blank : ∀ c ∈ before ++ behind, isBlank c = true)
      (natural : letterOf? first = some letter) (few : accidental.natAbs ≤ 2)
      (some : digits ≠ []) (decimal : ∀ c ∈ digits, isDigit c = true)
      (short : digits.length ≤ digitLimit) :
      Names (before ++ first :: (signsOf accidental ++ octaveText negative digits) ++ behind)
        { letter, accidental
          octave := Double.signed negative (digitsValue (digits.filterMap digit?)) }

theorem isBlank_of_letterOf? {c : Char} {letter : Letter} (natural : letterOf? c = some letter) :
    isBlank c = false := by
  apply isBlank_of_isAlpha
  by_cases lower : 'a'.val ≤ c.val ∧ c.val ≤ 'z'.val
  · have small : c.isLower = true :=
      Bool.and_eq_true_iff.mpr ⟨decide_eq_true lower.1, decide_eq_true lower.2⟩
    exact Bool.or_eq_true_iff.mpr (.inr small)
  · have same : c.toUpper = c := dif_neg lower
    unfold letterOf? Letter.ofChar? at natural
    rw [same] at natural
    split at natural <;> first | rfl | cases natural

theorem five_accidentals {accidental : Int} (few : accidental.natAbs ≤ 2) :
    accidental = -2 ∨ accidental = -1 ∨ accidental = 0 ∨ accidental = 1 ∨ accidental = 2 := by
  omega

theorem accidentalOf_signsOf {accidental : Int} (few : accidental.natAbs ≤ 2) {rest : List Char}
    (past : ∀ c ∈ rest.head?, c ≠ '#' ∧ c ≠ 'b') :
    accidentalOf (signsOf accidental ++ rest) = (accidental, rest) := by
  cases rest with
  | nil => rcases five_accidentals few with rfl | rfl | rfl | rfl | rfl <;> rfl
  | cons c rest =>
    obtain ⟨noSharp, noFlat⟩ := past c rfl
    rcases five_accidentals few with rfl | rfl | rfl | rfl | rfl <;>
      simp [signsOf, accidentalOf, *]

theorem accidentalOf_eq (text : List Char) :
    (accidentalOf text).1.natAbs ≤ 2 ∧
      text = signsOf (accidentalOf text).1 ++ (accidentalOf text).2 := by
  unfold accidentalOf
  split
  · exact ⟨Nat.le_refl 2, rfl⟩
  · exact ⟨Nat.le_succ 1, rfl⟩
  · exact ⟨Nat.le_refl 2, rfl⟩
  · exact ⟨Nat.le_succ 1, rfl⟩
  · exact ⟨Nat.zero_le 2, rfl⟩

theorem octaveSign_octaveText {digits : List Char} (decimal : ∀ c ∈ digits, isDigit c = true)
    (negative : Bool) : octaveSign (octaveText negative digits) = (negative, digits) := by
  cases negative with
  | true => rfl
  | false =>
    unfold octaveSign octaveText
    split
    · rename_i rest minus
      have here := decimal '-' (by simp_all)
      exact absurd here (by decide)
    · rfl

theorem octaveSign_eq (text : List Char) :
    text = octaveText (octaveSign text).1 (octaveSign text).2 := by
  unfold octaveSign
  split <;> rfl

/-! ## Reading -/

/-- How many digits are converted. -/
theorem length_filterMap_digit? {digits : List Char} (decimal : ∀ c ∈ digits, isDigit c = true) :
    (digits.filterMap digit?).length = digits.length :=
  List.filterMap_length_eq_length.mpr decimal

theorem names_of_ofName {s : String} {p : Pitch} (read : ofName s = .ok p) : Names s.toList p := by
  obtain ⟨before, behind, split, blank⟩ := exists_trim s.toList
  unfold ofName at read
  generalize trim s.toList = core at split read
  cases core with
  | nil => cases read
  | cons first rest =>
    dsimp only at read
    cases natural : letterOf? first with
    | none =>
      rw [natural] at read
      cases read
    | some letter =>
      obtain ⟨few, signs⟩ := accidentalOf_eq rest
      have octave := octaveSign_eq (accidentalOf rest).2
      rw [natural] at read
      dsimp only at read
      generalize octaveSign (accidentalOf rest).2 = parts at octave read
      rw [octave] at signs
      rw [split, signs]
      split at read
      · cases read
      rename_i decimal
      rw [Bool.or_eq_true_iff, not_or, Bool.not_eq_true', Bool.not_eq_false, List.isEmpty_iff,
        List.all_eq_true] at decimal
      rw [readDigits, length_filterMap_digit? decimal.2] at read
      split_ifs at read with long
      · obtain rfl := Except.ok.inj read
        exact .intro parts.1 blank natural few decimal.1 decimal.2 (Nat.not_lt.mp long)

theorem ofName_of_names {s : String} {p : Pitch} (named : Names s.toList p) : ofName s = .ok p := by
  unfold ofName
  generalize s.toList = text at named
  obtain @⟨before, digits, behind, first, letter, accidental, negative, blank, natural, few, some,
    decimal, short⟩ := named
  have ends : ∃ last front, isBlank last = false ∧
      first :: (signsOf accidental ++ octaveText negative digits) = front ++ [last] := by
    obtain ⟨d, digit⟩ := Option.isSome_iff_exists.mp (decimal _ (digits.getLast_mem some))
    refine ⟨digits.getLast some,
      first :: (signsOf accidental ++ octaveText negative digits.dropLast),
      isBlank_of_digit? digit, ?_⟩
    nth_rewrite 1 [← List.dropLast_concat_getLast some]
    cases negative <;> simp [octaveText]
  have past : ∀ c ∈ (octaveText negative digits).head?, c ≠ '#' ∧ c ≠ 'b' := by
    intro c head
    cases negative with
    | true =>
      obtain rfl := Option.some.inj head
      decide
    | false =>
      have digit := decimal c (List.mem_of_mem_head? head)
      constructor <;> rintro rfl <;> exact absurd digit (by decide)
  obtain ⟨last, front, last', same⟩ := ends
  have whole : digits.isEmpty = false ∧ digits.all isDigit = true :=
    ⟨by simpa using some, List.all_eq_true.mpr decimal⟩
  rw [trim_eq blank (isBlank_of_letterOf? natural) last' ⟨front, same⟩]
  dsimp only
  rw [natural]
  dsimp only
  rw [accidentalOf_signsOf few past]
  dsimp only
  rw [octaveSign_octaveText decimal]
  dsimp only
  rw [whole.1, whole.2, readDigits, length_filterMap_digit? decimal, if_neg (by decide),
    if_neg (Nat.not_lt.mpr short)]

/-- **A text is read as a pitch if it is one of its names.** -/
theorem ofName_eq_ok_iff {s : String} {p : Pitch} : ofName s = .ok p ↔ Names s.toList p :=
  ⟨names_of_ofName, ofName_of_names⟩

/-! ## Spelling -/

theorem toList_accidentalText {accidental : Int} (few : accidental.natAbs ≤ 2) :
    (accidentalText accidental).toList = signsOf accidental := by
  rcases five_accidentals few with rfl | rfl | rfl | rfl | rfl <;> decide

theorem toList_toString (n : Int) :
    (toString n).toList = octaveText (decide (n < 0)) (Nat.toDigits 10 n.natAbs) := by
  cases n with
  | ofNat k => simp [Int.repr, octaveText]
  | negSucc k => simp [Int.repr, octaveText, Int.negSucc_lt_zero]

theorem signed_natAbs (n : Int) : Double.signed (decide (n < 0)) n.natAbs = n := by
  unfold Double.signed
  by_cases below : n < 0
  · rw [decide_eq_true below, if_pos rfl]
    omega
  · rw [decide_eq_false below, if_neg Bool.false_ne_true]
    omega

/-- **The spelling of a pitch is one of its names**, if it has at most two signs and its octave is
not too long to be written. -/
theorem names_name {p : Pitch} (few : p.accidental.natAbs ≤ 2)
    (short : (Nat.toDigits 10 p.octave.natAbs).length ≤ digitLimit) : Names p.name.toList p := by
  have letter : letterOf? p.letter.toChar = some p.letter := by cases p.letter <;> rfl
  have named := @Names.intro [] (Nat.toDigits 10 p.octave.natAbs) [] p.letter.toChar p.letter
    p.accidental (decide (p.octave < 0)) (List.forall_mem_nil _) letter few Nat.toDigits_ne_nil
    isDigit_of_mem_toDigits short
  rw [digitsValue_toDigits, signed_natAbs] at named
  have text : p.name.toList = [] ++ p.letter.toChar :: (signsOf p.accidental ++
      octaveText (decide (p.octave < 0)) (Nat.toDigits 10 p.octave.natAbs)) ++ [] := by
    simp only [name, String.toList_append, toList_accidentalText few, toList_toString,
      String.toList_singleton, List.nil_append, List.append_nil, List.cons_append]
  rw [text]
  exact named

theorem isWritable_iff (n : Int) :
    isWritable n = true ↔ (Nat.toDigits 10 n.natAbs).length ≤ digitLimit := by
  have power (k : Nat) : pow10 k = 10 ^ k := rfl
  rw [Nat.length_toDigits_le_iff (by decide) (by decide)]
  unfold isWritable unwritableFrom
  rw [power, decide_eq_true_iff]

theorem spelling_eq {p : Pitch} (few : p.accidental.natAbs ≤ 2)
    (short : (Nat.toDigits 10 p.octave.natAbs).length ≤ digitLimit) : p.spelling = .ok p.name := by
  have digit : (Nat.toDigits 10 p.accidental.natAbs).length ≤ digitLimit := by
    rw [Nat.toDigits_of_lt_base (by omega), List.length_singleton]
    decide
  unfold spelling
  rw [(isWritable_iff _).mpr digit, (isWritable_iff _).mpr short]
  rfl

/-- What a pitch with a name looks like. -/
theorem bounds_of_names {text : List Char} {p : Pitch} (named : Names text p) :
    p.accidental.natAbs ≤ 2 ∧ (Nat.toDigits 10 p.octave.natAbs).length ≤ digitLimit := by
  obtain @⟨before, digits, behind, first, letter, accidental, negative, blank, natural, few, some,
    decimal, short⟩ := named
  refine ⟨few, ?_⟩
  have values : ∀ d ∈ digits.filterMap digit?, d < 10 := by
    intro d mem
    obtain ⟨c, -, digit⟩ := List.mem_filterMap.mp mem
    exact digit?_lt digit
  have size : (Double.signed negative (digitsValue (digits.filterMap digit?))).natAbs =
      digitsValue (digits.filterMap digit?) := by
    cases negative <;> simp [Double.signed]
  have below := digitsValue_lt values
  rw [length_filterMap_digit? decimal] at below
  rw [Nat.length_toDigits_le_iff (by decide) (by decide), size]
  exact Nat.lt_of_lt_of_le below (Nat.pow_le_pow_right (by decide) short)

end Pitch

/-- **Spelling and reading are inverse.**  A pitch with an accidental of at most two semitones and
an octave of at most 4300 digits has a spelling, and that is read as the pitch.  The texts that are
read at all are the names of pitches: blanks, a letter in either case, at most two equal signs, a
minus or none, at most 4300 digits of any scripts, and blanks.  The pitch of such a text is again
one of those that have a spelling, and its spelling is read as the same pitch. -/
theorem spellings_read_back :
    (∀ (letter : Letter) (accidental octave : Int), -2 ≤ accidental → accidental ≤ 2 →
      (Nat.toDigits 10 octave.natAbs).length ≤ 4300 →
        Pitch.spelling ⟨letter, accidental, octave⟩ =
          .ok (Pitch.name ⟨letter, accidental, octave⟩) ∧
        Pitch.ofName (Pitch.name ⟨letter, accidental, octave⟩) =
          .ok ⟨letter, accidental, octave⟩) ∧
    (∀ s p, Pitch.ofName s = .ok p ↔ Pitch.Names s.toList p) ∧
    ∀ s p, Pitch.ofName s = .ok p →
      (-2 ≤ p.accidental ∧ p.accidental ≤ 2) ∧ p.spelling = .ok p.name ∧
        Pitch.ofName p.name = .ok p := by
  refine ⟨?_, fun s p => Pitch.ofName_eq_ok_iff, ?_⟩
  · intro letter accidental octave low high short
    have few : accidental.natAbs ≤ 2 := by omega
    exact ⟨Pitch.spelling_eq few short, Pitch.ofName_of_names (Pitch.names_name few short)⟩
  · intro s p read
    obtain ⟨few, short⟩ := Pitch.bounds_of_names (Pitch.names_of_ofName read)
    exact ⟨by omega, Pitch.spelling_eq few short,
      Pitch.ofName_of_names (Pitch.names_name few short)⟩

/-- A small `b` that is a letter and one that is a sign, with digits of two scripts, a zero in front
and blanks around. -/
theorem spellings_read_back_flat :
    Pitch.ofName "\t bb-0\u0661\n" = .ok ⟨.b, -1, -1⟩ ∧
      Pitch.spelling ⟨.b, -1, -1⟩ = .ok (Pitch.name ⟨.b, -1, -1⟩) ∧
      Pitch.ofName (Pitch.name ⟨.b, -1, -1⟩) = .ok ⟨.b, -1, -1⟩ := by
  have read : Pitch.ofName "\t bb-0\u0661\n" = .ok ⟨.b, -1, -1⟩ := rfl
  obtain ⟨-, spelled, back⟩ := spellings_read_back.2.2 _ _ read
  exact ⟨read, spelled, back⟩

end Keysong
