import Keysong.Proofs.Compiling
import Keysong.Proofs.Misconfiguration
import Keysong.Proofs.WholeNumbers

/-!
# Which values are tempos

A tempo is a positive finite number, and whoever gives anything else is told so.  Two kinds of
values are not told: an integer without a machine number fails before it is compared, and a value
that cannot be written fails while its refusal is worded.  Neither fault is one of a tempo, so a
command does not catch it.

## Main Definitions

* `Value.IsTempo` — the values that are tempos
* `Value.ConvertsTo` — the machine number that a value is converted to
* `Value.isTractable` — the values that can be looked at
* `Tempo.refusal` — the fault of a value that is no tempo

## Main Statements

* `Tempo.ofValue_of_isTractable`, `Tempo.ofValue_of_not_isTractable` — what becomes of a value
* `Command.isTractable_of_arguments` — on a command line only values are given that can be looked at
* `Command.runSettings_of_ok`, `Command.runSettings_of_error` — what becomes of a command
* `Command.tempo_taken_or_refused` — a value that can be looked at is a tempo, or refused as one
* `Command.huge_tempos_escape` — an integer that is too large is neither
-/

namespace Keysong

open Decimal

namespace Value

/-- A value that is a tempo: a positive number, and a finite one. -/
def IsTempo : Value → Prop
  | int n => 0 < n
  | float x => x.isFinite = true ∧ 0 < x
  | _ => False

/-- The machine number of a value: its own, or the nearest to an integer. -/
def ConvertsTo (v : Value) (x : Float) : Prop :=
  match v with
  | int n => IsNearest x n
  | float y => x = y
  | _ => False

/-- Whether a value can be looked at: an integer has a machine number, and anything else can be
written. -/
def isTractable : Value → Bool
  | int n => decide (n.natAbs < tooLargeFrom)
  | v => v.isWritable

end Value

namespace Tempo

/-- What is said of a value that is no tempo. -/
def refusal (v : Value) : Fault :=
  match v with
  | .int _ | .float _ => .tempoOutOfRange v
  | _ => .tempoNotNumber v

theorem mul_pow2_le {m a b c : Nat} (digits : m ≤ pow10 a) (sum : a + b ≤ c) :
    m * pow2 b ≤ pow10 c := by
  have scale : pow2 b ≤ pow10 b := Nat.pow_le_pow_left (by decide) b
  calc m * pow2 b ≤ pow10 a * pow10 b := Nat.mul_le_mul digits scale
    _ = pow10 (a + b) := (Nat.pow_add 10 a b).symm
    _ ≤ pow10 c := Nat.pow_le_pow_right (by decide) sum

/-- An integer with a machine number can be written. -/
theorem isWritable_of_isTractable {v : Value} (tractable : v.isTractable = true) :
    v.isWritable = true := by
  cases v with
  | int n =>
    have few : tooLargeFrom ≤ unwritableFrom := by
      unfold tooLargeFrom unwritableFrom
      exact mul_pow2_le (by decide : 2 ^ 54 - 1 ≤ pow10 17) (by decide)
    have small : n.natAbs < tooLargeFrom := of_decide_eq_true tractable
    show Decimal.isWritable n = true
    unfold Decimal.isWritable
    rw [decide_eq_true_iff]
    exact Nat.lt_of_lt_of_le small few
  | _ => exact tractable

theorem kind_refusal (v : Value) :
    (refusal v).kind = if v.isWritable then .invalidTempo else .invalidValue := by
  unfold refusal
  split <;> cases writable : Value.isWritable _ <;> simp [Fault.kind, Fault.isWritable, writable]

/-- What becomes of a machine number. -/
theorem ofFloat_eq (asGiven : Value) (x : Float) :
    (∃ tempo, ofFloat asGiven x = .ok tempo ∧ tempo.bpm = x ∧ x.isFinite = true ∧ 0 < x) ∨
      ofFloat asGiven x = .error (.tempoOutOfRange asGiven) ∧ ¬ (x.isFinite = true ∧ 0 < x) := by
  unfold ofFloat
  by_cases valid : x.isFinite = true ∧ 0 < x
  · rw [dif_pos valid]
    exact Or.inl ⟨_, rfl, rfl, valid⟩
  · rw [dif_neg valid]
    exact Or.inr ⟨rfl, valid⟩

theorem ofValue_int {n : Int} {x : Float} (known : ofInt n = some x) :
    ofValue (.int n) = ofFloat (.int n) x := by
  unfold ofValue
  dsimp only
  rw [known]

theorem ofValue_int_tooLarge {n : Int} (unknown : ofInt n = none) :
    ofValue (.int n) = .error .numberTooLarge := by
  unfold ofValue
  dsimp only
  rw [unknown]

/-- **What becomes of a value that can be looked at**: it is a tempo, or it is refused. -/
theorem ofValue_of_isTractable {v : Value} (tractable : v.isTractable = true) :
    (v.IsTempo ∧ ∃ tempo, ofValue v = .ok tempo ∧ v.ConvertsTo tempo.bpm) ∨
      ¬ v.IsTempo ∧ ofValue v = .error (refusal v) := by
  cases v with
  | int n =>
    cases known : ofInt n with
    | none =>
      have small : n.natAbs < tooLargeFrom := of_decide_eq_true tractable
      exact absurd (ofInt_eq_none_iff.mp known) (Nat.not_le.mpr small)
    | some x =>
      have near := isNearest_ofInt known
      rw [ofValue_int known]
      show (0 < n ∧ _) ∨ ¬ 0 < n ∧ _
      rw [← zero_lt_ofInt_iff known]
      rcases ofFloat_eq (.int n) x with ⟨tempo, valid, rfl, -, pos⟩ | ⟨refused, notTempo⟩
      · exact Or.inl ⟨pos, tempo, valid, near⟩
      · exact Or.inr ⟨fun pos => notTempo ⟨near.finite, pos⟩, refused⟩
  | float x =>
    rcases ofFloat_eq (.float x) x with ⟨tempo, valid, same, isTempo⟩ | ⟨refused, notTempo⟩
    · exact Or.inl ⟨isTempo, tempo, valid, same⟩
    · exact Or.inr ⟨notTempo, refused⟩
  | _ => exact Or.inr ⟨id, rfl⟩

/-- **What becomes of any other value**: it fails, and not as a tempo does. -/
theorem ofValue_of_not_isTractable {v : Value} (untractable : v.isTractable = false) :
    ∃ fault, ofValue v = .error fault ∧ fault.kind ≠ .invalidTempo := by
  have unwritable (written : v.isWritable = false) : (refusal v).kind ≠ .invalidTempo := by
    rw [kind_refusal, written]
    decide
  cases v with
  | int n =>
    have large : tooLargeFrom ≤ n.natAbs := Nat.not_lt.mp (of_decide_eq_false untractable)
    exact ⟨.numberTooLarge, ofValue_int_tooLarge (ofInt_eq_none_iff.mpr large), by decide⟩
  | float x => cases untractable
  | _ => exact ⟨_, rfl, unwritable untractable⟩

end Tempo

namespace Command

open Settings

/-! ## Tempos on the command line -/

theorem isTractable_joined (effect : Effect) (value : List Char) :
    (Use.joined effect value).value.isTractable = true := by
  unfold Use.joined
  split <;> rfl

theorem isTractable_alone (f : Flag) : ∀ u ∈ f.alone.uses, u.value.isTractable = true := by
  unfold Flag.alone
  split <;> simp [Value.isTractable, Value.isWritable]

theorem isTractable_unchain {flags : List Flag} {f : Flag} {name text : List Char} {chain : Chain}
    (read : unchain flags f name text = .ok chain) :
    ∀ u ∈ chain.uses, u.value.isTractable = true := by
  induction text generalizing f name chain with
  | nil =>
    unfold unchain at read
    split at read
    · obtain rfl := Except.ok.inj read
      simp [isTractable_joined]
    · cases read
  | cons letter behind ih =>
    unfold unchain at read
    split at read
    · obtain rfl := Except.ok.inj read
      simp [isTractable_joined]
    split at read
    · cases read
    split at read
    · cases read
    · split at read
      · obtain rfl := Except.ok.inj read
        exact List.forall_mem_cons.mpr ⟨rfl, isTractable_alone _⟩
      · obtain ⟨more, here, read⟩ := exists_of_bind read
        obtain rfl := Except.ok.inj read
        exact List.forall_mem_cons.mpr ⟨rfl, ih here⟩

theorem isTractable_takeFlag {flags : List Flag} {f : Flag} {name : List Char}
    {value : Option (List Char)} {rest behind : List Word} {uses : List Use}
    (taken : takeFlag flags f name value rest = .ok (uses, behind)) :
    ∀ u ∈ uses, u.value.isTractable = true := by
  have chained : ∀ chain, value.elim (.ok f.alone) (unchain flags f name) = .ok chain →
      ∀ u ∈ chain.uses, u.value.isTractable = true := by
    intro chain here
    cases value with
    | none =>
      obtain rfl := Except.ok.inj here
      exact isTractable_alone f
    | some text => exact isTractable_unchain here
  unfold takeFlag at taken
  -- Either way a chain is read, and its uses are kept, one with a text behind them at most.
  cases value
  all_goals
    obtain ⟨chain, here, taken⟩ := exists_of_bind taken
    have uses := chained chain here
    dsimp only at taken
    split at taken
    · cases taken
      exact uses
    · cases taken
      exact List.forall_mem_append.mpr ⟨uses, by simp [Value.isTractable, Value.isWritable]⟩
    · cases taken

/-- The use of an option that has a tractable value leaves a tractable tempo. -/
theorem isTractable_use {d d' : Draft} {u : Use} (before : d.bpm.isTractable = true)
    (value : u.value.isTractable = true) (used : d.use u = .ok d') : d'.bpm.isTractable = true := by
  unfold Draft.use at used
  cases effect : u.effect with
  | help =>
    rw [effect] at used
    cases used
  | bpm =>
    rw [effect] at used
    dsimp only at used
    split at used
    · split at used
      · obtain rfl := Except.ok.inj used
        rfl
      · cases used
    · obtain rfl := Except.ok.inj used
      exact value
  | _ =>
    -- no other option has to do with the tempo
    rw [effect] at used
    obtain rfl := Except.ok.inj used
    exact before

theorem isTractable_uses {d d' : Draft} {uses : List Use} (before : d.bpm.isTractable = true)
    (values : ∀ u ∈ uses, u.value.isTractable = true) (used : uses.foldlM Draft.use d = .ok d') :
    d'.bpm.isTractable = true := by
  induction uses generalizing d with
  | nil =>
    obtain rfl := Except.ok.inj used
    exact before
  | cons u rest ih =>
    obtain ⟨value, others⟩ := List.forall_mem_cons.mp values
    rw [List.foldlM_cons] at used
    obtain ⟨next, here, used⟩ := exists_of_bind used
    exact ih (isTractable_use before value here) others used

theorem isTractable_readCommand {flags : List Flag} {fuel : Nat} {d d' : Draft} {words : List Word}
    (read : readCommand flags fuel d words = .ok d') (before : d.bpm.isTractable = true) :
    d'.bpm.isTractable = true := by
  induction fuel generalizing d words with
  | zero =>
    obtain rfl := Except.ok.inj read
    exact before
  | succ fuel ih =>
    cases words with
    | nil =>
      obtain rfl := Except.ok.inj read
      exact before
    | cons word rest =>
      cases word with
      | unknown =>
        unfold readCommand at read
        exact ih read before
      | flag f name value =>
        obtain ⟨⟨uses, behind⟩, here, read⟩ := exists_of_bind read
        obtain ⟨next, used, read⟩ := exists_of_bind read
        exact ih read (isTractable_uses before (isTractable_takeFlag here) used)
      | operand text =>
        unfold readCommand at read
        dsimp only at read
        split at read
        · exact ih read before
        · exact ih read before
      | divider =>
        unfold readCommand at read
        dsimp only at read
        split at read
        · exact ih read before
        · exact ih read before

theorem isTractable_readLeading {fuel : Nat} {d : Draft} {words : List Word}
    {texts : List (List Char)} {a : Arguments} (read : readLeading fuel d words texts = .ok a)
    (before : d.bpm.isTractable = true) : a.bpm.isTractable = true := by
  induction fuel generalizing d words texts with
  | zero => cases read
  | succ fuel ih =>
    unfold readLeading at read
    split at read
    · exact ih read before
    · obtain ⟨⟨uses, behind⟩, here, read⟩ := exists_of_bind read
      obtain ⟨next, used, read⟩ := exists_of_bind read
      exact ih read (isTractable_uses before (isTractable_takeFlag here) used)
    · split at read
      · cases read
      · obtain ⟨words, sorted, read⟩ := exists_of_bind read
        obtain ⟨next, here, read⟩ := exists_of_bind read
        have after := isTractable_readCommand here before
        split at read
        · cases read
        · split at read
          · cases read
          · obtain rfl := Except.ok.inj read
            exact after
    · cases read

/-- **A command line gives no tempo that cannot be looked at**: what is given is read as a machine
number, or is nothing. -/
theorem isTractable_of_arguments {line : List String} {a : Arguments}
    (read : arguments line = .ok a) : a.bpm.isTractable = true := by
  obtain ⟨words, -, read⟩ := exists_of_bind read
  exact isTractable_readLeading read rfl

/-! ## Commands at a tempo -/

section Commands

variable {a : Arguments} {s : Settings} (c : Compiler) (w : World)

theorem runSettings_of_null (missing : tempoOf a s = .null) :
    runSettings a s c w =
      refused "No tempo given: pass --bpm or set tempo.bpm in the config file" := by
  unfold runSettings
  rw [missing]

theorem runSettings_of_ok {tempo : Tempo} (valid : Tempo.ofValue (tempoOf a s) = .ok tempo) :
    ∃ m, Melody.ofText c a.text (tempoOf a s) s.trackName = .ok m ∧ m.tempo = tempo ∧
      runSettings a s c w = (runMelody a s m w).behind (m.textNotices c) := by
  have made : Melody.ofText c a.text (tempoOf a s) s.trackName =
      .ok ⟨a.text, tempo, s.trackName, c.events a.text.toList⟩ := by
    unfold Melody.ofText
    rw [valid, c.compile_eq]
    rfl
  refine ⟨_, made, rfl, ?_⟩
  unfold runSettings
  split
  · rename_i missing
    rw [missing] at valid
    cases valid
  · rw [made]

theorem runSettings_of_error (given : tempoOf a s ≠ .null) {fault : Fault}
    (failed : Tempo.ofValue (tempoOf a s) = .error fault) :
    runSettings a s c w =
      if fault.kind = .invalidTempo then refused fault.message else { result := .error fault } := by
  have unmade : Melody.ofText c a.text (tempoOf a s) s.trackName = .error fault := by
    unfold Melody.ofText
    rw [failed]
    rfl
  unfold runSettings
  split
  · rename_i missing
    exact absurd missing given
  · rw [unmade]
    dsimp only
    split
    · rename_i kind
      rw [if_pos kind]
    · rename_i kind
      rw [if_neg kind]

end Commands

/-- **A value that can be looked at is a tempo, or it is refused as one**, and no other value is.  A
number above zero is taken if it is finite, an integer as the nearest machine number; whatever else
can be looked at is refused in words of its own, and only what cannot be looked at fails.  So a
command without a tempo, or with a value that is none, ends with a code of its own, one with a
tempo goes on, and only a value that cannot be looked at ends it with a fault; no command line
gives one. -/
theorem tempo_taken_or_refused (v : Value) :
    (v.isTractable = true ↔
      v.IsTempo ∧ (∃ tempo, Tempo.ofValue v = .ok tempo ∧ v.ConvertsTo tempo.bpm) ∨
        ¬ v.IsTempo ∧ Tempo.ofValue v = .error (Tempo.refusal v) ∧
          (Tempo.refusal v).kind = .invalidTempo) ∧
    (v.isTractable = false →
      ∃ fault, Tempo.ofValue v = .error fault ∧ fault.kind ≠ .invalidTempo) ∧
    (∀ (a : Arguments) (s : Settings) (c : Compiler) (w : World), tempoOf a s = v →
      v = .null ∧ runSettings a s c w =
          refused "No tempo given: pass --bpm or set tempo.bpm in the config file" ∨
        (v.isTractable = true ∧ v.IsTempo ∧
          ∃ m, Melody.ofText c a.text v s.trackName = .ok m ∧ v.ConvertsTo m.tempo.bpm ∧
            runSettings a s c w = (runMelody a s m w).behind (m.textNotices c)) ∨
        (v.isTractable = true ∧ ¬ v.IsTempo ∧
          runSettings a s c w = refused (Tempo.refusal v).message) ∨
        v.isTractable = false ∧
          ∃ fault, fault.kind ≠ .invalidTempo ∧ runSettings a s c w = { result := .error fault }) ∧
    (∀ (line : List String) (a : Arguments), arguments line = .ok a → a.bpm = v → v ≠ .null →
      v.isTractable = true ∧ ∀ s, tempoOf a s = v) := by
  have kind (tractable : v.isTractable = true) : (Tempo.refusal v).kind = .invalidTempo := by
    rw [Tempo.kind_refusal, Tempo.isWritable_of_isTractable tractable, if_pos rfl]
  refine ⟨⟨fun tractable => ?_, fun settled => ?_⟩, Tempo.ofValue_of_not_isTractable,
    fun a s c w own => ?_, fun line a read own given => ?_⟩
  · rcases Tempo.ofValue_of_isTractable tractable with taken | ⟨notTempo, failed⟩
    · exact Or.inl taken
    · exact Or.inr ⟨notTempo, failed, kind tractable⟩
  · by_contra untractable
    obtain ⟨fault, failed, other⟩ :=
      Tempo.ofValue_of_not_isTractable (Bool.eq_false_iff.mpr untractable)
    rcases settled with ⟨-, tempo, valid, -⟩ | ⟨-, refused, ofTempo⟩
    · cases failed.symm.trans valid
    · obtain rfl := Except.error.inj (failed.symm.trans refused)
      exact other ofTempo
  · subst own
    by_cases missing : tempoOf a s = .null
    · exact Or.inl ⟨missing, runSettings_of_null c w missing⟩
    right
    cases tractable : (tempoOf a s).isTractable with
    | true =>
      rcases Tempo.ofValue_of_isTractable tractable with ⟨isTempo, tempo, valid, converted⟩ |
        ⟨notTempo, failed⟩
      · obtain ⟨m, made, rfl, goesOn⟩ := runSettings_of_ok c w valid
        exact Or.inl ⟨rfl, isTempo, m, made, converted, goesOn⟩
      · have told := runSettings_of_error c w missing failed
        rw [if_pos (kind tractable)] at told
        exact Or.inr (Or.inl ⟨rfl, notTempo, told⟩)
    | false =>
      obtain ⟨fault, failed, other⟩ := Tempo.ofValue_of_not_isTractable tractable
      have escapes := runSettings_of_error c w missing failed
      rw [if_neg other] at escapes
      exact Or.inr (Or.inr ⟨rfl, fault, other, escapes⟩)
  · subst own
    refine ⟨isTractable_of_arguments read, fun s => ?_⟩
    unfold tempoOf
    split
    · exact absurd ‹a.bpm = .null› given
    · rfl

/-- An integer, and a text, which is no tempo; and a number on a command line. -/
theorem tempo_taken_or_refused_show :
    (∃ tempo, Tempo.ofValue (.int 120) = .ok tempo ∧ (Value.int 120).ConvertsTo tempo.bpm) ∧
      (Tempo.refusal (.text "fast")).kind = .invalidTempo ∧
      (∃ fault, Tempo.ofValue (.list [.int (10 ^ 4300)]) = .error fault ∧
        fault.kind ≠ .invalidTempo) ∧
      ∃ a, arguments ["show", "cat", "--bpm", "120"] = .ok a ∧ a.bpm ≠ .null ∧
        ∀ s, (tempoOf a s).isTractable = true := by
  have slow : (Value.int 120).isTractable = true := by decide +kernel
  have words : (Value.text "fast").isTractable = true := by decide +kernel
  have long : (Value.list [.int (10 ^ 4300)]).isTractable = false := by decide +kernel
  refine ⟨?_, ?_, (tempo_taken_or_refused _).2.1 long, ?_⟩
  · rcases (tempo_taken_or_refused _).1.mp slow with ⟨-, taken⟩ | ⟨notTempo, -⟩
    · exact taken
    · exact absurd (by decide : 0 < (120 : Int)) notTempo
  · rcases (tempo_taken_or_refused _).1.mp words with ⟨isTempo, -⟩ | ⟨-, -, kind⟩
    · exact isTempo.elim
    · exact kind
  · have given : (match arguments ["show", "cat", "--bpm", "120"] with
        | .ok a => a.bpm.isTruthy
        | .error _ => false) = true := by decide +kernel
    cases read : arguments ["show", "cat", "--bpm", "120"] with
    | error refusal =>
      rw [read] at given
      cases given
    | ok a =>
      rw [read] at given
      have some : a.bpm ≠ .null := by
        intro none
        dsimp only at given
        rw [none] at given
        cases given
      obtain ⟨tractable, own⟩ := (tempo_taken_or_refused a.bpm).2.2.2 _ a read rfl some
      exact ⟨a, rfl, some, fun s => by rw [own s]; exact tractable⟩

/-- Settings with an integer of 310 digits as their tempo. -/
def hugeEntries : Entries := [(.text "tempo", .mapping [(.text "bpm", .int (10 ^ 309))])]

/-- Whether settings are built whose tempo cannot be looked at. -/
def asksTooMuch : Except Fault (Settings × Compiler) → Bool
  | .ok (s, _) => !s.bpm.isTractable
  | .error _ => false

/-- An integer that is too large has no machine number, above zero or below, and fails as no tempo
does; where it is the tempo of the settings, the command does not end with a code. -/
theorem huge_tempos_escape :
    Tempo.ofValue (.int (10 ^ 309)) = .error .numberTooLarge ∧
      Tempo.ofValue (.int (-10 ^ 309)) = .error .numberTooLarge ∧
      Fault.numberTooLarge.kind ≠ .invalidTempo ∧
      ∃ s c, build hugeEntries = .ok (s, c) ∧ ∀ w,
        (runSettings { Arguments.showing with bpm := .null } s c w).escape?.isSome = true := by
  have above : tooLargeFrom ≤ (10 ^ 309 : Int).natAbs := by decide +kernel
  have below : tooLargeFrom ≤ (-10 ^ 309 : Int).natAbs := by decide +kernel
  have asks : asksTooMuch (build hugeEntries) = true := by decide +kernel
  refine ⟨Tempo.ofValue_int_tooLarge (ofInt_eq_none_iff.mpr above),
    Tempo.ofValue_int_tooLarge (ofInt_eq_none_iff.mpr below), by decide, ?_⟩
  cases built : build hugeEntries with
  | error fault =>
    rw [built] at asks
    cases asks
  | ok both =>
    obtain ⟨s, c⟩ := both
    rw [built] at asks
    refine ⟨s, c, rfl, fun w => ?_⟩
    have untractable : s.bpm.isTractable = false := by simpa [asksTooMuch] using asks
    have some : s.bpm ≠ .null := by
      intro none
      rw [none] at untractable
      cases untractable
    obtain ⟨fault, failed, other⟩ := Tempo.ofValue_of_not_isTractable untractable
    have own : tempoOf { Arguments.showing with bpm := .null } s = s.bpm := rfl
    rw [runSettings_of_error c w (own ▸ some) (own ▸ failed), if_neg other]
    rfl

end Command

end Keysong
