import Keysong.Token

/-!
# The language of tokens

`Keysong.Token` reads a text with a machine.  Here the rows of tokens that it reads are described
without the machine, and the reading is tied to that description in both directions.

## Main Definitions

* `IsWordOff` — a word: not empty, no blanks, and free of one marker
* `Token.IsProper` — a word free of the opening marker, or a group of words free of the closing one
* `Token.letters` — the characters of a token
* `strippedFrom` — a text without the characters that only separate
* `Reader.readFrom` — the tokens that a text adds to a state

## Main Statements

* `tokens_language` — every token is proper, every row of proper tokens is read back from its
  text, and reading loses nothing but what separates

### The invariant

A word grows letter by letter, so a token is proper because the state before it was:
`Reader.IsClean` says of an unfinished word and of the finished members what `Token.IsProper` says
of a token, save that the unfinished word may still be empty.
-/

namespace Keysong

open Keysong.Text

/-! ## Words, proper tokens and what separates them -/

/-- A word that is not empty, holds no blank and is free of a marker. -/
def IsWordOff (marker : Char) (word : List Char) : Prop :=
  word ≠ [] ∧ ∀ c ∈ word, isBlank c = false ∧ c ≠ marker

instance (marker : Char) (word : List Char) : Decidable (IsWordOff marker word) :=
  @instDecidableAnd _ _ inferInstance
    (List.decidableBAll (fun c => isBlank c = false ∧ c ≠ marker) word)

/-- What a token looks like.  A word may hold the closing marker, and the members of a group may
hold the opening one. -/
def Token.IsProper (g : Grammar) : Token → Prop
  | .word letters => IsWordOff g.groupOpen letters
  | .group members => ∀ member ∈ members, IsWordOff g.groupClose member

instance (g : Grammar) : DecidablePred (Token.IsProper g)
  | .word letters => inferInstanceAs (Decidable (IsWordOff g.groupOpen letters))
  | .group members =>
    inferInstanceAs (Decidable (∀ member ∈ members, IsWordOff g.groupClose member))

/-- The characters of a token, in order. -/
def Token.letters : Token → List Char
  | .word letters => letters
  | .group members => members.flatten

/-- A text without its blanks, without the opening markers outside of a group and without the
closing markers inside of one; `inside` tells where the text starts. -/
def strippedFrom (g : Grammar) : Bool → List Char → List Char
  | _, [] => []
  | false, c :: rest =>
    if c = g.groupOpen then strippedFrom g true rest
    else if isBlank c then strippedFrom g false rest
    else c :: strippedFrom g false rest
  | true, c :: rest =>
    if c = g.groupClose then strippedFrom g false rest
    else if isBlank c then strippedFrom g true rest
    else c :: strippedFrom g true rest

namespace Reader

/-- The tokens that end within a text, and those that end with it. -/
def readFrom (g : Grammar) (r : Reader) (text : List Char) : List Token :=
  r.emitted g text ++ (r.after g text).finish

@[simp] theorem readFrom_nil (g : Grammar) (r : Reader) : r.readFrom g [] = r.finish := rfl

theorem readFrom_cons (g : Grammar) (r : Reader) (c : Char) (rest : List Char) :
    r.readFrom g (c :: rest) = r.emit g c ++ (r.step g c).readFrom g rest := by
  simp [readFrom, emitted, after]

/-- A whole text is read from outside, with no word begun. -/
theorem tokens_eq_readFrom (g : Grammar) (text : List Char) :
    tokens g text = (outside []).readFrom g text := rfl

/-! ## Every token is proper -/

/-- The members are words, and the word that is being read holds no separating character. -/
def IsClean (g : Grammar) : Reader → Prop
  | outside word => ∀ c ∈ word, isBlank c = false ∧ c ≠ g.groupOpen
  | inside members word =>
    (∀ member ∈ members, IsWordOff g.groupClose member) ∧
      ∀ c ∈ word, isBlank c = false ∧ c ≠ g.groupClose

/-- A word that is put aside is not empty. -/
theorem isWordOff_of_mem_unlessEmpty {marker : Char} {word member : List Char}
    (h : ∀ c ∈ word, isBlank c = false ∧ c ≠ marker) (mem : member ∈ unlessEmpty word) :
    IsWordOff marker member := by
  unfold unlessEmpty at mem
  split at mem
  · cases mem
  · rename_i nonempty
    rw [List.mem_singleton] at mem
    subst mem
    exact ⟨nonempty, h⟩

/-- The members of a group, the unfinished one included. -/
theorem isWordOff_of_mem_members {g : Grammar} {members : List (List Char)} {word : List Char}
    (clean : (inside members word).IsClean g) :
    ∀ member ∈ members ++ unlessEmpty word, IsWordOff g.groupClose member := by
  intro member mem
  rcases List.mem_append.mp mem with mem | mem
  · exact clean.1 member mem
  · exact isWordOff_of_mem_unlessEmpty clean.2 mem

/-- A state that has read one more letter is clean. -/
theorem isClean_step {g : Grammar} {r : Reader} (clean : r.IsClean g) (c : Char) :
    (r.step g c).IsClean g := by
  cases r with
  | outside word =>
    by_cases isOpen : c = g.groupOpen
    · simp [step, isOpen, IsClean]
    cases blank : isBlank c with
    | true => simp [step, isOpen, blank, IsClean]
    | false =>
      simp only [step, isOpen, blank, if_false, Bool.false_eq_true]
      exact List.forall_mem_append.mpr ⟨clean, List.forall_mem_singleton.mpr ⟨blank, isOpen⟩⟩
  | inside members word =>
    by_cases isClose : c = g.groupClose
    · simp [step, isClose, IsClean]
    cases blank : isBlank c with
    | true =>
      simp only [step, isClose, blank, if_false, if_true]
      exact ⟨isWordOff_of_mem_members clean, by simp⟩
    | false =>
      simp only [step, isClose, blank, if_false, Bool.false_eq_true]
      exact ⟨clean.1,
        List.forall_mem_append.mpr ⟨clean.2, List.forall_mem_singleton.mpr ⟨blank, isClose⟩⟩⟩

/-- What a clean state gives away at its end is proper. -/
theorem isProper_of_mem_finish {g : Grammar} {r : Reader} (clean : r.IsClean g) :
    ∀ t ∈ r.finish, t.IsProper g := by
  intro t mem
  cases r with
  | outside word =>
    obtain ⟨letters, here, rfl⟩ := List.mem_map.mp mem
    exact isWordOff_of_mem_unlessEmpty clean here
  | inside members word =>
    rw [finish, List.mem_singleton] at mem
    subst mem
    exact isWordOff_of_mem_members clean

/-- A token that ends at a character is one that the state before would have ended with. -/
theorem emit_subset_finish (g : Grammar) (r : Reader) (c : Char) : r.emit g c ⊆ r.finish := by
  cases r <;> simp only [emit, finish] <;> split <;> simp

theorem isProper_of_mem_readFrom {g : Grammar} {r : Reader} (clean : r.IsClean g)
    (text : List Char) : ∀ t ∈ r.readFrom g text, t.IsProper g := by
  induction text generalizing r with
  | nil => exact isProper_of_mem_finish clean
  | cons c rest ih =>
    intro t mem
    rw [readFrom_cons, List.mem_append] at mem
    rcases mem with mem | mem
    · exact isProper_of_mem_finish clean t (emit_subset_finish g r c mem)
    · exact ih (isClean_step clean c) t mem

/-! ## Every row of proper tokens is read back -/

/-- The letters of a word are read one after the other. -/
theorem readFrom_outside_append {g : Grammar} {letters : List Char}
    (h : ∀ c ∈ letters, isBlank c = false ∧ c ≠ g.groupOpen) (word rest : List Char) :
    (outside word).readFrom g (letters ++ rest) = (outside (word ++ letters)).readFrom g rest := by
  induction letters generalizing word with
  | nil => simp
  | cons c letters ih =>
    obtain ⟨blank, notOpen⟩ := h c List.mem_cons_self
    have tail := ih (fun x mem => h x (List.mem_cons_of_mem c mem)) (word ++ [c])
    rw [List.cons_append, readFrom_cons]
    simpa [emit, step, blank, notOpen] using tail

/-- The letters of a member are read one after the other. -/
theorem readFrom_inside_append {g : Grammar} {letters : List Char}
    (h : ∀ c ∈ letters, isBlank c = false ∧ c ≠ g.groupClose) (members : List (List Char))
    (word rest : List Char) :
    (inside members word).readFrom g (letters ++ rest) =
      (inside members (word ++ letters)).readFrom g rest := by
  induction letters generalizing word with
  | nil => simp
  | cons c letters ih =>
    obtain ⟨blank, notClose⟩ := h c List.mem_cons_self
    have tail := ih (fun x mem => h x (List.mem_cons_of_mem c mem)) (word ++ [c])
    rw [List.cons_append, readFrom_cons]
    simpa [emit, step, blank, notClose] using tail

/-- A space is blank, and therefore no marker. -/
theorem isBlank_space : isBlank ' ' = true := by decide

theorem space_ne_groupOpen (g : Grammar) : ' ' ≠ g.groupOpen := by
  intro h
  have visible := g.visible g.groupOpen List.mem_cons_self
  rw [← h, isBlank_space] at visible
  cases visible

theorem space_ne_groupClose (g : Grammar) : ' ' ≠ g.groupClose := by
  intro h
  have visible := g.visible g.groupClose (List.mem_cons_of_mem _ List.mem_cons_self)
  rw [← h, isBlank_space] at visible
  cases visible

@[simp] theorem unlessEmpty_of_ne_nil {word : List Char} (h : word ≠ []) :
    unlessEmpty word = [word] := by simp [unlessEmpty, h]

/-- The members of a group up to its closing marker. -/
theorem readFrom_members {g : Grammar} {members : List (List Char)}
    (h : ∀ member ∈ members, IsWordOff g.groupClose member) (before : List (List Char))
    (rest : List Char) :
    (inside before []).readFrom g
        (List.intercalate [' '] members ++ g.groupClose :: rest) =
      .group (before ++ members) :: (outside []).readFrom g rest := by
  induction members generalizing before with
  | nil => simp [List.intercalate, readFrom_cons, emit, step, unlessEmpty]
  | cons member members ih =>
    obtain ⟨nonempty, letters⟩ := h member List.mem_cons_self
    cases members with
    | nil =>
      rw [List.intercalate_singleton, readFrom_inside_append letters, readFrom_cons]
      simp [emit, step, nonempty]
    | cons second members =>
      have tail := ih (fun m mem => h m (List.mem_cons_of_mem member mem)) (before ++ [member])
      rw [List.intercalate_cons_cons, List.append_assoc, List.append_assoc,
        readFrom_inside_append letters, List.nil_append, List.singleton_append, readFrom_cons]
      simpa [emit, step, nonempty, space_ne_groupClose, isBlank_space] using tail

/-- A token up to the end of the text. -/
theorem readFrom_render {g : Grammar} {t : Token} (proper : t.IsProper g) :
    (outside []).readFrom g (t.render g) = [t] := by
  cases t with
  | word letters =>
    rw [Token.render, ← List.append_nil letters, readFrom_outside_append proper.2]
    simp [finish, proper.1]
  | group members =>
    rw [Token.render, readFrom_cons]
    simpa [emit, step, unlessEmpty, finish] using readFrom_members proper [] []

/-- A token up to the space behind it. -/
theorem readFrom_render_space {g : Grammar} {t : Token} (proper : t.IsProper g)
    (rest : List Char) :
    (outside []).readFrom g (t.render g ++ ' ' :: rest) =
      t :: (outside []).readFrom g rest := by
  cases t with
  | word letters =>
    rw [Token.render, readFrom_outside_append proper.2, readFrom_cons]
    simp [emit, step, proper.1, space_ne_groupOpen, isBlank_space]
  | group members =>
    have inner := readFrom_members proper [] (' ' :: rest)
    rw [readFrom_cons g (outside []) ' '] at inner
    rw [Token.render, List.cons_append, List.append_assoc, List.singleton_append, readFrom_cons]
    simpa [emit, step, unlessEmpty, space_ne_groupOpen, isBlank_space] using inner

theorem readFrom_renderTokens {g : Grammar} {row : List Token}
    (proper : ∀ t ∈ row, t.IsProper g) :
    (outside []).readFrom g (renderTokens g row) = row := by
  induction row with
  | nil => rfl
  | cons t row ih =>
    cases row with
    | nil => simpa [renderTokens] using readFrom_render (proper t List.mem_cons_self)
    | cons second row =>
      have tail := ih fun u mem => proper u (List.mem_cons_of_mem t mem)
      rw [renderTokens, List.map_cons, List.map_cons, List.intercalate_cons_cons, List.append_assoc,
        List.singleton_append, readFrom_render_space (proper t List.mem_cons_self)]
      exact congrArg (t :: ·) tail

/-! ## Nothing is lost but what separates -/

/-- The characters that a state still holds. -/
def held : Reader → List Char
  | outside word => word
  | inside members word => members.flatten ++ word

/-- Whether a state is inside of a group. -/
def isInside : Reader → Bool
  | outside _ => false
  | inside _ _ => true

@[simp] theorem flatten_unlessEmpty (word : List Char) : (unlessEmpty word).flatten = word := by
  unfold unlessEmpty
  split <;> simp_all

@[simp] theorem flatMap_letters_words (words : List (List Char)) :
    (words.map Token.word).flatMap Token.letters = words.flatten := by
  simp [List.flatMap_map, Token.letters]

/-- The characters of what is read are those held before, then those of the text. -/
theorem flatMap_letters_readFrom (g : Grammar) (r : Reader) (text : List Char) :
    (r.readFrom g text).flatMap Token.letters = r.held ++ strippedFrom g r.isInside text := by
  induction text generalizing r with
  | nil =>
    cases r with
    | outside word => simp [finish, held, strippedFrom]
    | inside members word => simp [finish, held, strippedFrom, Token.letters]
  | cons c rest ih =>
    rw [readFrom_cons, List.flatMap_append, ih]
    cases r with
    | outside word =>
      by_cases isOpen : c = g.groupOpen
      · simp [emit, step, isOpen, held, isInside, strippedFrom]
      · cases blank : isBlank c <;>
          simp [emit, step, isOpen, blank, held, isInside, strippedFrom]
    | inside members word =>
      by_cases isClose : c = g.groupClose
      · simp [emit, step, isClose, held, isInside, strippedFrom, Token.letters]
      · cases blank : isBlank c <;>
          simp [emit, step, isClose, blank, held, isInside, strippedFrom]

end Reader

/-! ## Reading is exact -/

/-- **The tokens of texts are the rows of proper tokens.**  Every token that is read is proper; a
row of proper tokens is read back from its text; and the characters of the tokens of a text are,
in order, those of the text that do not separate. -/
theorem tokens_language (g : Grammar) :
    (∀ text, ∀ t ∈ tokens g text, t.IsProper g) ∧
      (∀ row : List Token, (∀ t ∈ row, t.IsProper g) → tokens g (renderTokens g row) = row) ∧
      ∀ text, (tokens g text).flatMap Token.letters = strippedFrom g false text := by
  refine ⟨fun text t mem => ?_, fun row proper => ?_, fun text => ?_⟩
  · have clean : (Reader.outside []).IsClean g := by simp [Reader.IsClean]
    rw [Reader.tokens_eq_readFrom] at mem
    exact Reader.isProper_of_mem_readFrom clean text t mem
  · rw [Reader.tokens_eq_readFrom]
    exact Reader.readFrom_renderTokens proper
  · rw [Reader.tokens_eq_readFrom]
    exact Reader.flatMap_letters_readFrom g (.outside []) text

/-- A row with a closing marker in a word and an opening one in a member, read back from its
text. -/
theorem tokens_language_stray :
    (∀ t ∈ [Token.word ['a', ')'], .group [], .group [['(', 'b'], ['c']]],
        t.IsProper .standard) ∧
      tokens .standard (renderTokens .standard
        [.word ['a', ')'], .group [], .group [['(', 'b'], ['c']]]) =
        [.word ['a', ')'], .group [], .group [['(', 'b'], ['c']]] := by
  have proper : ∀ t ∈ [Token.word ['a', ')'], .group [], .group [['(', 'b'], ['c']]],
      t.IsProper .standard := by decide
  exact ⟨proper, (tokens_language .standard).2.1 _ proper⟩

end Keysong
