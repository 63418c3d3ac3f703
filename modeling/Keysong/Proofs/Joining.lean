import Keysong.Proofs.Compiling
import Keysong.Proofs.TokenLanguage

/-!
# Texts that are joined

What a text is compiled into does not hang on what stands before or behind it, as long as the two
are kept apart.  Outside of a group a blank keeps them apart; inside of one, the closing marker
does.

## Main Definitions

* `Reader.Parts` — a character that ends all that a state holds

## Main Statements

* `tokens_append_of_parts` — the tokens of two texts with such a character between them
* `compile_append` — compiling is compositional

### The end of a text

A text that ends inside of a group gives away what the closing marker would: `Reader.finish` and
`Reader.emit` agree on every character that parts.  So to leave the marker out at the end of a text
and to write it are the same.
-/

namespace Keysong

open Keysong.Text

namespace Reader

/-- A character that ends all that a state holds: what it gives away is what the end of the text
would, and behind it everything starts anew. -/
structure Parts (g : Grammar) (r : Reader) (c : Char) : Prop where
  emits : r.emit g c = r.finish
  anew : r.step g c = outside []

theorem ne_groupOpen_of_isBlank {g : Grammar} {w : Char} (blank : isBlank w = true) :
    w ≠ g.groupOpen := by
  rintro rfl
  rw [g.visible g.groupOpen List.mem_cons_self] at blank
  cases blank

/-- Outside of a group, a blank parts. -/
theorem parts_of_isBlank {g : Grammar} {r : Reader} (isOutside : r.isInside = false) {w : Char}
    (blank : isBlank w = true) : r.Parts g w := by
  cases r with
  | outside word =>
    constructor
    · simp [emit, finish, blank]
    · simp [step, ne_groupOpen_of_isBlank blank, blank]
  | inside members word => cases isOutside

/-- Inside of a group, the closing marker parts. -/
theorem parts_groupClose {g : Grammar} {r : Reader} (isInside : r.isInside = true) :
    r.Parts g g.groupClose := by
  cases r with
  | outside word => cases isInside
  | inside members word =>
    constructor
    · simp [emit, finish]
    · simp [step]

end Reader

/-- The tokens of two texts with a character between them that parts. -/
theorem tokens_append_of_parts {g : Grammar} {s : List Char} {c : Char}
    (parts : (readerAfter g s).Parts g c) (t : List Char) :
    tokens g (s ++ c :: t) = tokens g s ++ tokens g t := by
  -- Up to the character the two readings agree; behind it the second text is read from the start.
  calc tokens g (s ++ c :: t)
      = (Reader.outside []).emitted g s ++ (readerAfter g s).readFrom g (c :: t) := by
        rw [Reader.tokens_eq_readFrom, Reader.readFrom, Reader.emitted_append, Reader.after_append,
          List.append_assoc]
        rfl
    _ = (Reader.outside []).emitted g s ++ ((readerAfter g s).finish ++ tokens g t) := by
        rw [Reader.readFrom_cons, parts.emits, parts.anew, ← Reader.tokens_eq_readFrom]
    _ = tokens g s ++ tokens g t := (List.append_assoc _ _ _).symm

namespace Compiler

/-- The events of two texts with a character between them that parts. -/
theorem events_append_of_parts (c : Compiler) {s : List Char} {x : Char}
    (parts : (readerAfter c.grammar s).Parts c.grammar x) (t : List Char) :
    c.events (s ++ x :: t) = c.events s ++ c.events t := by
  unfold events
  rw [tokens_append_of_parts parts, List.flatMap_append]

/-- A blank before a text is not heard. -/
theorem events_cons_of_isBlank (c : Compiler) {w : Char} (blank : isBlank w = true)
    (t : List Char) : c.events (w :: t) = c.events t :=
  c.events_append_of_parts (s := []) (Reader.parts_of_isBlank rfl blank) t

end Compiler

/-- **Compiling is compositional.**  A text that ends outside of a group may be followed by a blank
and any other text: its events are followed by those of the other.  A text that ends inside of a
group has the events that it has with the closing marker, and with the marker and a blank it may be
followed by any other text as well. -/
theorem compile_append (c : Compiler) (s : List Char) :
    ((readerAfter c.grammar s).isInside = false →
      ∀ w t, isBlank w = true →
        ∃ first others, c.compile s = .ok first ∧ c.compile t = .ok others ∧
          c.compile (s ++ w :: t) = .ok (first ++ others)) ∧
      ((readerAfter c.grammar s).isInside = true →
        c.compile s = c.compile (s ++ [c.grammar.groupClose]) ∧
          ∀ w t, isBlank w = true →
            ∃ first others, c.compile s = .ok first ∧ c.compile t = .ok others ∧
              c.compile (s ++ c.grammar.groupClose :: w :: t) = .ok (first ++ others)) := by
  refine ⟨fun isOutside w t blank => ?_, fun isInside => ⟨?_, fun w t blank => ?_⟩⟩
  · refine ⟨_, _, c.compile_eq s, c.compile_eq t, ?_⟩
    rw [c.compile_eq, c.events_append_of_parts (Reader.parts_of_isBlank isOutside blank)]
  · have nothing : c.events [] = [] := rfl
    rw [c.compile_eq, c.compile_eq, c.events_append_of_parts (Reader.parts_groupClose isInside),
      nothing, List.append_nil]
  · refine ⟨_, _, c.compile_eq s, c.compile_eq t, ?_⟩
    rw [c.compile_eq, c.events_append_of_parts (Reader.parts_groupClose isInside),
      c.events_cons_of_isBlank blank]

/-- A word that is cut off by a line feed, and a group that is cut off within its second member,
each before a text with stray markers. -/
theorem compile_append_cut :
    (readerAfter Grammar.standard ['c', '\'', 'a']).isInside = false ∧
      (readerAfter Grammar.standard ['(', 'c', ' ', '(', 'a']).isInside = true ∧
      (∃ first others,
        Compiler.standard.compile ['c', '\'', 'a'] = .ok first ∧
        Compiler.standard.compile [')', 'd', '('] = .ok others ∧
        Compiler.standard.compile ['c', '\'', 'a', '\n', ')', 'd', '('] = .ok (first ++ others)) ∧
      ∃ first others,
        Compiler.standard.compile ['(', 'c', ' ', '(', 'a'] = .ok first ∧
        Compiler.standard.compile [')', 'd', '('] = .ok others ∧
        Compiler.standard.compile ['(', 'c', ' ', '(', 'a', ')', '\n', ')', 'd', '('] =
          .ok (first ++ others) := by
  have isOutside : (readerAfter Grammar.standard ['c', '\'', 'a']).isInside = false := by decide
  have isInside : (readerAfter Grammar.standard ['(', 'c', ' ', '(', 'a']).isInside = true := by
    decide
  have blank : isBlank '\n' = true := by decide
  exact ⟨isOutside, isInside,
    (compile_append .standard ['c', '\'', 'a']).1 isOutside '\n' [')', 'd', '('] blank,
    ((compile_append .standard ['(', 'c', ' ', '(', 'a']).2 isInside).2 '\n' [')', 'd', '('] blank⟩

end Keysong
