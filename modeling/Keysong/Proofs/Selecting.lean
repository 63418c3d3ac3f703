import Keysong.Device
import Mathlib.Tactic.Common

/-!
# Selecting an output

`Device.select` gives the outcome of a selection at once.  Here a selection is taken step by step,
as it happens at a desk: outputs are listed, lines are prompted for and read, an output is opened,
and each of these steps can go wrong.  One handler inside the loop of prompts catches lines that are
no numbers, and one around everything catches the rest.

## Main Definitions

* `Trouble` — what a step raises
* `Sitting` — what was read, tried, opened, printed and reported so far
* `Steps` — steps that change a sitting and may be broken off
* `selecting` — a selection, step by step
* `IsChoice` — a line that makes a choice
* `IsSelection` — what holds of a selection when it is over

## Main Statements

* `run_ask` — the loop of prompts ends with the first line that makes a choice, or with the input
* `run_selecting` — a selection raises nothing, and what it did is what `select` says
* `selection_over` — what was opened, and when

### Why the loop ends

Each pass of the loop reads a line, and reading raises an exception when no line is left.  That
exception is no bad number, so the handler inside the loop lets it through and the one outside
reports it.
-/

namespace Keysong.Device

open Keysong.Text

/-! ## Steps -/

/-- What a step raises. -/
inductive Trouble where
  /-- A line that is not read as an integer. -/
  | notNumber (line : String) (fault : Decimal.WholeFault)
  | other (reason : String)

/-- The message of an exception. -/
def Trouble.reason : Trouble → String
  | notNumber line .malformed => "invalid literal for int() with base 10: " ++ quoted line
  | notNumber _ (.tooLong digits) => Fault.message (.tooManyDigits digits)
  | other reason => reason

/-- An open output. -/
structure Port where
  leadsTo : String
  deriving Repr, DecidableEq

/-- What happened at a desk so far. -/
structure Sitting where
  /-- The lines that were not read yet. -/
  waiting : List String
  /-- The outputs that it was tried to open. -/
  tried : List String
  ports : List Port
  printed : String
  notices : List Notice
  deriving Repr, DecidableEq

/-- Nothing has happened yet. -/
def Sitting.start (lines : List String) : Sitting where
  waiting := lines
  tried := []
  ports := []
  printed := ""
  notices := []

/-- Steps that change a sitting and may be broken off. -/
abbrev Steps : Type → Type := ExceptT Trouble (StateM Sitting)

def say (text : String) : Steps Unit := modify fun s => { s with printed := s.printed ++ text }

def report (notice : Notice) : Steps Unit :=
  modify fun s => { s with notices := s.notices ++ [notice] }

/-- Prompts for a line and reads it. -/
def readLine (question : String) : Steps String := do
  say question
  match (← get).waiting with
  | [] => throw (.other "EOF when reading a line")
  | line :: rest =>
    modify fun s => { s with waiting := rest }
    return line

def readNumber (line : String) : Steps Int :=
  match Decimal.readWhole line.toList with
  | .ok n => return n
  | .error fault => throw (.notNumber line fault)

/-- What a line is prompted for with. -/
def question (count : Nat) : String := "Select a device (1-" ++ toString count ++ "): "

/-- What a line that makes no choice is answered with. -/
def refusal (count : Nat) : String := "Enter a number between 1 and " ++ toString count ++ ".\n"

/-- One pass of the loop of prompts; nothing if the line makes no choice. -/
def askOnce (count : Nat) : Steps (Option Nat) :=
  tryCatch
    (do
      let line ← readLine (question count)
      let n ← readNumber line
      return if 1 ≤ n ∧ n ≤ count then some n.toNat else none)
    fun
      | .notNumber .. => return none
      | trouble => throw trouble

/-- Asks until a line makes a choice.  There is a pass for each line that waits, and a last one that
meets the end of the input. -/
def ask (count : Nat) : List String → Steps (Option Nat)
  | [] => askOnce count
  | _ :: rest => do
    match ← askOnce count with
    | some n => return some n
    | none =>
      say (refusal count)
      ask count rest

/-- Asks which of several outputs is meant. -/
def prompt (outputs : List String) : Steps String := do
  say (menu outputs)
  let choice ← ask outputs.length (← get).waiting
  match choice.bind fun n => outputs[n - 1]? with
  | some name =>
    say (tip name)
    return name
  | none => throw (.other "list index out of range")

/-- The report of what there is to choose from. -/
def found (outputs : List String) : Notice := ⟨.info, "Available MIDI outputs: " ++ listed outputs⟩

/-- The report of what was opened. -/
def openedNotice (name : String) : Notice := ⟨.info, "Opened MIDI output: " ++ name⟩

/-- Lists the outputs. -/
def listOutputs (desk : Desk) : Steps (List String) :=
  match desk.listFault with
  | some reason => throw (.other reason)
  | none => do
    report (found desk.outputs)
    return desk.outputs

/-- Looks for a requested output. -/
def find (outputs : List String) : Value → Steps (Option String)
  | .text name =>
    if outputs.contains name then return some name
    else do
      report (choose.missing name outputs)
      return none
  | other =>
    if other.isWritable then do
      report (choose.missing other.display outputs)
      return none
    else throw (.other (Fault.message .unwritableInteger))

/-- Which output to open; nothing if that was already reported. -/
def decideOn (requested : Value) (interactive : Bool) : List String → Steps (Option String)
  | [] => do
    report ⟨.error, "No MIDI output devices found."⟩
    return none
  | outputs =>
    match requested with
    | .null =>
      match outputs with
      | [only] => do
        report ⟨.info, "One MIDI output found - using '" ++ only ++ "'"⟩
        return some only
      | _ =>
        if interactive then do
          let name ← prompt outputs
          return some name
        else do
          report ⟨.error, "Several MIDI outputs found and no device name given: " ++
            listed outputs⟩
          return none
    | requested => find outputs requested

/-- Opens an output. -/
def openOutput (desk : Desk) (name : String) : Steps Port := do
  modify fun s => { s with tried := s.tried ++ [name] }
  match desk.openFault with
  | some reason => throw (.other reason)
  | none =>
    modify fun s => { s with ports := s.ports ++ [⟨name⟩] }
    report (openedNotice name)
    return ⟨name⟩

/-- Lists the outputs, decides on one and opens it. -/
def attempt (desk : Desk) (requested : Value) (interactive : Bool) :
    Steps (Option (String × Port)) := do
  let outputs ← listOutputs desk
  match ← decideOn requested interactive outputs with
  | none => return none
  | some name =>
    let port ← openOutput desk name
    return some (name, port)

/-- A selection, step by step.  Whatever is raised on the way is reported. -/
def selecting (desk : Desk) (requested : Value) (interactive : Bool) :
    Steps (Option (String × Port)) :=
  tryCatch (attempt desk requested interactive) fun trouble => do
    report (failed trouble.reason)
    return none

/-! ## Steps in a row -/

variable {α β : Type} {s s' : Sitting}

theorem run_pure (a : α) : (pure a : Steps α) s = (.ok a, s) := rfl

theorem run_say (text : String) :
    say text s = (.ok (), { s with printed := s.printed ++ text }) := rfl

/-- Steps go on where the steps before them ended. -/
theorem run_bind {x : Steps α} {a : α} (done : x s = (.ok a, s')) (f : α → Steps β) :
    (x >>= f) s = f a s' := by
  show ExceptT.bindCont f (x s).1 (x s).2 = _
  rw [done]
  rfl

/-- An exception breaks off the steps behind it. -/
theorem run_bind_error {x : Steps α} {t : Trouble} (raised : x s = (.error t, s'))
    (f : α → Steps β) : (x >>= f) s = (.error t, s') := by
  show ExceptT.bindCont f (x s).1 (x s).2 = _
  rw [raised]
  rfl

/-- A handler does nothing if nothing is raised. -/
theorem run_tryCatch {x : Steps α} {a : α} (done : x s = (.ok a, s')) (handle : Trouble → Steps α) :
    (tryCatch x handle : Steps α) s = (.ok a, s') := by
  simp only [tryCatch, tryCatchThe, MonadExceptOf.tryCatch, ExceptT.tryCatch, ExceptT.mk, bind,
    StateT.bind]
  rw [done]
  rfl

/-- A handler goes on where an exception was raised. -/
theorem run_tryCatch_error {x : Steps α} {t : Trouble} (raised : x s = (.error t, s'))
    (handle : Trouble → Steps α) : (tryCatch x handle : Steps α) s = handle t s' := by
  simp only [tryCatch, tryCatchThe, MonadExceptOf.tryCatch, ExceptT.tryCatch, ExceptT.mk, bind,
    StateT.bind]
  rw [raised]

/-! ## The loop of prompts -/

theorem run_askOnce_end (count : Nat) {s : Sitting} (nothing : s.waiting = []) :
    askOnce count s =
      (.error (.other "EOF when reading a line"),
        { s with printed := s.printed ++ question count }) := by
  obtain ⟨waiting, tried, ports, printed, notices⟩ := s
  obtain rfl : waiting = [] := nothing
  rfl

/-- A pass reads one line; a number out of range and no number at all are the same. -/
theorem run_askOnce_line (count : Nat) {s : Sitting} {line : String} {rest : List String}
    (next : s.waiting = line :: rest) :
    askOnce count s =
      (.ok (readChoice count line),
        { s with waiting := rest, printed := s.printed ++ question count }) := by
  obtain ⟨waiting, tried, ports, printed, notices⟩ := s
  obtain rfl : waiting = line :: rest := next
  -- Once the line is read, the rest of the pass depends on what it is read as.
  have pass : askOnce count ⟨line :: rest, tried, ports, printed, notices⟩ =
      (tryCatch
        (do
          let n ← readNumber line
          return if 1 ≤ n ∧ n ≤ count then some n.toNat else none)
        fun
          | .notNumber .. => return none
          | trouble => throw trouble : Steps (Option Nat))
        ⟨rest, tried, ports, printed ++ question count, notices⟩ := rfl
  rw [pass]
  unfold readChoice readNumber
  cases Decimal.readWhole line.toList with
  | ok n => rfl
  | error fault => rfl

/-- The lines behind the first one that makes a choice. -/
def linesBehind (count : Nat) : List String → List String
  | [] => []
  | line :: rest => if (readChoice count line).isSome then rest else linesBehind count rest

theorem firstChoice_cons (count : Nat) (line : String) (rest : List String) :
    firstChoice count (line :: rest) =
      match readChoice count line with
      | some n => (some n, question count)
      | none => ((firstChoice count rest).1,
          question count ++ refusal count ++ (firstChoice count rest).2) := by
  rw [firstChoice]
  generalize readChoice count line = choice
  cases choice with
  | some n => rfl
  | none =>
    unfold question refusal
    simp only [String.append_assoc]

/-- **The loop of prompts ends with the first line that makes a choice**, or with an exception when
the input ends. -/
theorem run_ask (count : Nat) (lines : List String) {s : Sitting} (all : s.waiting = lines) :
    ask count lines s =
      (match (firstChoice count lines).1 with
        | some n => .ok (some n)
        | none => .error (.other "EOF when reading a line"),
        { s with
          waiting := linesBehind count lines
          printed := s.printed ++ (firstChoice count lines).2 }) := by
  induction lines generalizing s with
  | nil =>
    rw [ask, run_askOnce_end count all]
    obtain ⟨waiting, tried, ports, printed, notices⟩ := s
    obtain rfl : waiting = [] := all
    rfl
  | cons line rest ih =>
    rw [ask, run_bind (run_askOnce_line count all), firstChoice_cons, linesBehind]
    generalize readChoice count line = choice
    cases choice with
    | some n => rfl
    | none =>
      dsimp only
      rw [run_bind (run_say (refusal count)), ih rfl, String.append_assoc, String.append_assoc]
      rfl

/-- A choice is one of the outputs. -/
theorem range_of_firstChoice {count n : Nat} {lines : List String}
    (chosen : (firstChoice count lines).1 = some n) : 1 ≤ n ∧ n ≤ count := by
  induction lines with
  | nil => cases chosen
  | cons line rest ih =>
    rw [firstChoice_cons] at chosen
    cases choice : readChoice count line with
    | none =>
      rw [choice] at chosen
      exact ih chosen
    | some m =>
      rw [choice] at chosen
      obtain rfl := Option.some.inj chosen
      unfold readChoice at choice
      split at choice
      · split at choice
        · obtain rfl := Option.some.inj choice
          omega
        · cases choice
      · cases choice

/-! ## A selection as a whole -/

/-- The lines that wait when a selection is over: all of them, unless it asked. -/
def linesLeft (outputs : List String) (requested : Value) (interactive : Bool)
    (lines : List String) : List String :=
  match requested, outputs with
  | .null, _ :: _ :: _ => if interactive then linesBehind outputs.length lines else lines
  | _, _ => lines

/-- What steps have come to: to a decision, or to an exception that the decision reports. -/
def ComesTo (left : List String) (decision : Option String × String × List Notice) (s : Sitting)
    (run : Except Trouble (Option String) × Sitting) : Prop :=
  run = (.ok decision.1, { s with
    waiting := left
    printed := s.printed ++ decision.2.1
    notices := s.notices ++ decision.2.2 }) ∨
  ∃ trouble, decision.1 = none ∧ decision.2.2 = [failed trouble.reason] ∧
    run = (.error trouble, { s with waiting := left, printed := s.printed ++ decision.2.1 })

/-- A decision that is only reported. -/
theorem comesTo_reported (choice : Option String) (notice : Notice) (s : Sitting) :
    ComesTo s.waiting (choice, "", [notice]) s
      (.ok choice, { s with notices := s.notices ++ [notice] }) := by
  left
  simp

/-- An exception that leaves everything as it was. -/
theorem comesTo_raised (trouble : Trouble) (s : Sitting) :
    ComesTo s.waiting (none, "", [failed trouble.reason]) s (.error trouble, s) := by
  refine Or.inr ⟨trouble, rfl, rfl, ?_⟩
  simp

theorem choose_given {requested : Value} (given : requested ≠ .null) (first : String)
    (rest : List String) (interactive : Bool) (lines : List String) :
    choose (first :: rest) requested interactive lines =
      match requested with
      | .text name =>
        if (first :: rest).contains name then (some name, "", [])
        else (none, "", [choose.missing name (first :: rest)])
      | other =>
        if other.isWritable then (none, "", [choose.missing other.display (first :: rest)])
        else (none, "", [failed (Fault.message .unwritableInteger)]) := by
  cases requested with
  | null => exact absurd rfl given
  | _ => cases rest <;> rfl

/-- What is requested is looked for. -/
theorem comesTo_find (first : String) (rest : List String) {requested : Value}
    (given : requested ≠ .null) (interactive : Bool) (s : Sitting) :
    ComesTo s.waiting (choose (first :: rest) requested interactive s.waiting) s
      (find (first :: rest) requested s) := by
  rw [choose_given given]
  unfold find
  cases requested with
  | null => exact absurd rfl given
  | text name =>
    dsimp only
    split
    · left
      simp [run_pure]
    · exact comesTo_reported none _ s
  | _ =>
    dsimp only
    split
    · exact comesTo_reported none _ s
    · exact comesTo_raised (.other _) s

/-- Asking which of several outputs is meant: a line that makes a choice names one of them. -/
theorem run_prompt (outputs : List String) (s : Sitting) :
    prompt outputs s =
      match (firstChoice outputs.length s.waiting).1.bind fun n => outputs[n - 1]? with
      | some name => (.ok name, { s with
          waiting := linesBehind outputs.length s.waiting
          printed := s.printed ++
            (menu outputs ++ (firstChoice outputs.length s.waiting).2 ++ tip name) })
      | none => (.error (.other "EOF when reading a line"), { s with
          waiting := linesBehind outputs.length s.waiting
          printed := s.printed ++
            (menu outputs ++ (firstChoice outputs.length s.waiting).2) }) := by
  have asked := run_ask outputs.length s.waiting
    (s := { s with printed := s.printed ++ menu outputs }) rfl
  unfold prompt
  rw [run_bind (run_say (menu outputs))]
  show (ask outputs.length s.waiting >>= _ : Steps String) _ = _
  cases chosen : (firstChoice outputs.length s.waiting).1 with
  | none =>
    rw [chosen] at asked
    rw [run_bind_error asked, String.append_assoc]
    rfl
  | some n =>
    obtain ⟨least, most⟩ := range_of_firstChoice chosen
    have named : outputs[n - 1]? = some outputs[n - 1] :=
      List.getElem?_eq_getElem (by omega)
    rw [chosen] at asked
    rw [run_bind asked, Option.bind_some, named]
    dsimp only
    rw [run_bind (run_say _), run_pure, String.append_assoc, String.append_assoc]

theorem choose_several (first second : String) (rest lines : List String) :
    choose (first :: second :: rest) .null true lines =
      match (firstChoice (first :: second :: rest).length lines).1.bind
          fun n => (first :: second :: rest)[n - 1]? with
      | some name =>
        (some name, menu (first :: second :: rest) ++
          (firstChoice (first :: second :: rest).length lines).2 ++ tip name, [])
      | none =>
        (none, menu (first :: second :: rest) ++
          (firstChoice (first :: second :: rest).length lines).2,
          [failed (Trouble.other "EOF when reading a line").reason]) :=
  rfl

/-- Asking which of several outputs is meant comes to what `choose` says. -/
theorem comesTo_prompt (first second : String) (rest : List String) (s : Sitting) :
    ComesTo (linesBehind (first :: second :: rest).length s.waiting)
      (choose (first :: second :: rest) .null true s.waiting) s
      ((do
        let name ← prompt (first :: second :: rest)
        return some name : Steps _) s) := by
  have asked := run_prompt (first :: second :: rest) s
  rw [choose_several]
  generalize (firstChoice (first :: second :: rest).length s.waiting).1.bind
    (fun n => (first :: second :: rest)[n - 1]?) = choice at asked
  cases choice with
  | none => exact Or.inr ⟨.other "EOF when reading a line", rfl, rfl, run_bind_error asked _⟩
  | some name =>
    left
    rw [run_bind asked, run_pure]
    simp

/-- **A decision comes to what `choose` says.** -/
theorem comesTo_decideOn (outputs : List String) (requested : Value) (interactive : Bool)
    (s : Sitting) :
    ComesTo (linesLeft outputs requested interactive s.waiting)
      (choose outputs requested interactive s.waiting) s
      (decideOn requested interactive outputs s) := by
  cases outputs with
  | nil =>
    have left : linesLeft [] requested interactive s.waiting = s.waiting := by
      cases requested <;> rfl
    rw [left]
    exact comesTo_reported none _ s
  | cons first rest =>
    by_cases given : requested = .null
    · subst given
      cases rest with
      | nil => exact comesTo_reported (some first) _ s
      | cons second rest =>
        cases interactive with
        | true => exact comesTo_prompt first second rest s
        | false => exact comesTo_reported none _ s
    · have left : linesLeft (first :: rest) requested interactive s.waiting = s.waiting := by
        cases requested with
        | null => exact absurd rfl given
        | _ => rfl
      have sought : decideOn requested interactive (first :: rest) =
          find (first :: rest) requested := by
        cases requested with
        | null => exact absurd rfl given
        | _ => rfl
      rw [left, sought]
      exact comesTo_find first rest given interactive s

section Attempt

variable {desk : Desk} {requested : Value} {interactive : Bool} {outputs : List String}
  {first last : Sitting}

/-- Opening an output works unless something is wrong with it. -/
theorem run_openOutput (openFault : desk.openFault = none) (name : String) (s : Sitting) :
    openOutput desk name s =
      (.ok ⟨name⟩, { s with
        tried := s.tried ++ [name]
        ports := s.ports ++ [⟨name⟩]
        notices := s.notices ++ [openedNotice name] }) := by
  unfold openOutput
  rw [openFault]
  rfl

theorem run_openOutput_error {reason : String} (openFault : desk.openFault = some reason)
    (name : String) (s : Sitting) :
    openOutput desk name s =
      (.error (.other reason), { s with tried := s.tried ++ [name] }) := by
  unfold openOutput
  rw [openFault]
  rfl

theorem run_listOutputs (listFault : desk.listFault = none) (s : Sitting) :
    listOutputs desk s =
      (.ok desk.outputs, { s with notices := s.notices ++ [found desk.outputs] }) := by
  unfold listOutputs
  rw [listFault]
  rfl

/-- The report of a handler. -/
theorem run_selecting_of_error {trouble : Trouble}
    (raised : attempt desk requested interactive s = (.error trouble, last)) :
    selecting desk requested interactive s =
      (.ok none, { last with notices := last.notices ++ [failed trouble.reason] }) :=
  run_tryCatch_error raised _

/-- Nothing is opened if that is what was decided. -/
theorem run_selecting_none (listed : listOutputs desk s = (.ok outputs, first))
    (decided : decideOn requested interactive outputs first = (.ok none, last)) :
    selecting desk requested interactive s = (.ok none, last) := by
  apply run_tryCatch
  unfold attempt
  rw [run_bind listed, run_bind decided]
  rfl

/-- A decision that is broken off is reported. -/
theorem run_selecting_raised (listed : listOutputs desk s = (.ok outputs, first))
    {trouble : Trouble}
    (raised : decideOn requested interactive outputs first = (.error trouble, last)) :
    selecting desk requested interactive s =
      (.ok none, { last with notices := last.notices ++ [failed trouble.reason] }) := by
  apply run_selecting_of_error
  unfold attempt
  rw [run_bind listed, run_bind_error raised]

variable {name : String}

theorem run_attempt_some (listed : listOutputs desk s = (.ok outputs, first))
    (decided : decideOn requested interactive outputs first = (.ok (some name), last)) :
    attempt desk requested interactive s =
      (do
        let port ← openOutput desk name
        return some (name, port) : Steps _) last := by
  unfold attempt
  rw [run_bind listed, run_bind decided]

theorem run_selecting_some (listed : listOutputs desk s = (.ok outputs, first))
    (decided : decideOn requested interactive outputs first = (.ok (some name), last))
    (openFault : desk.openFault = none) :
    selecting desk requested interactive s =
      (.ok (some (name, ⟨name⟩)), { last with
        tried := last.tried ++ [name]
        ports := last.ports ++ [⟨name⟩]
        notices := last.notices ++ [openedNotice name] }) := by
  apply run_tryCatch
  rw [run_attempt_some listed decided, run_bind (run_openOutput openFault name last), run_pure]

theorem run_selecting_fault (listed : listOutputs desk s = (.ok outputs, first))
    (decided : decideOn requested interactive outputs first = (.ok (some name), last))
    {reason : String} (openFault : desk.openFault = some reason) :
    selecting desk requested interactive s =
      (.ok none, { last with
        tried := last.tried ++ [name]
        notices := last.notices ++ [failed reason] }) := by
  have raised := run_attempt_some listed decided
  rw [run_bind_error (run_openOutput_error openFault name last)] at raised
  exact run_selecting_of_error raised

/-- The report of an attempt to open an output. -/
def opening (desk : Desk) (name : String) : Notice :=
  match desk.openFault with
  | some reason => failed reason
  | none => openedNotice name

/-- What `select` says of a decision. -/
theorem select_eq {choice : Option String} {printed : String} {notices : List Notice}
    (listFault : desk.listFault = none)
    (decided : choose desk.outputs requested interactive desk.lines = (choice, printed, notices)) :
    select desk requested interactive =
      { attempted := choice
        opened := if desk.openFault = none then choice else none
        printed
        notices := found desk.outputs :: notices ++ (choice.map (opening desk)).toList } := by
  unfold select opening
  rw [listFault, decided]
  cases choice with
  | none => simp [found]
  | some name => cases desk.openFault <;> simp [found, openedNotice]

end Attempt

/-- What has happened at a desk when a selection is over. -/
def Sitting.over (desk : Desk) (requested : Value) (interactive : Bool) : Sitting where
  waiting :=
    if desk.listFault = none then linesLeft desk.outputs requested interactive desk.lines
    else desk.lines
  tried := (select desk requested interactive).attempted.toList
  ports := (select desk requested interactive).opened.toList.map Port.mk
  printed := (select desk requested interactive).printed
  notices := (select desk requested interactive).notices

/-- **A selection raises nothing**, and what it did is what `select` says. -/
theorem run_selecting (desk : Desk) (requested : Value) (interactive : Bool) :
    selecting desk requested interactive (.start desk.lines) =
      (.ok ((select desk requested interactive).opened.map fun name => (name, ⟨name⟩)),
        .over desk requested interactive) := by
  cases listFault : desk.listFault with
  | some reason =>
    have raised : attempt desk requested interactive (.start desk.lines) =
        (.error (.other reason), .start desk.lines) := by
      apply run_bind_error
      unfold listOutputs
      rw [listFault]
      rfl
    rw [run_selecting_of_error raised]
    unfold Sitting.over select
    rw [listFault]
    rfl
  | none =>
    have listed := run_listOutputs listFault (.start desk.lines)
    have decided := comesTo_decideOn desk.outputs requested interactive
      { Sitting.start desk.lines with notices := [found desk.outputs] }
    obtain ⟨⟨choice, printed, notices⟩, chosen⟩ :
      ∃ decision, choose desk.outputs requested interactive desk.lines = decision := ⟨_, rfl⟩
    unfold Sitting.over
    rw [select_eq listFault chosen, listFault]
    dsimp only [Sitting.start, List.nil_append] at decided listed ⊢
    rw [chosen] at decided
    rcases decided with done | ⟨trouble, nothing, reported, raised⟩
    · cases choice with
      | none =>
        rw [run_selecting_none listed done]
        simp
      | some name =>
        cases openFault : desk.openFault with
        | some reason =>
          rw [run_selecting_fault listed done openFault]
          simp [opening, openFault]
        | none =>
          rw [run_selecting_some listed done openFault]
          simp [opening, openFault]
    · rw [run_selecting_raised listed raised]
      obtain rfl : choice = none := nothing
      obtain rfl : notices = _ := reported
      simp

/-! ## What was opened, and when -/

/-- A line that is read as a number in range. -/
def IsChoice (count : Nat) (line : String) (k : Int) : Prop :=
  Decimal.readWhole line.toList = .ok k ∧ 1 ≤ k ∧ k ≤ count

theorem readChoice_of_isChoice {count : Nat} {line : String} {k : Int}
    (choice : IsChoice count line k) : readChoice count line = some k.toNat := by
  obtain ⟨whole, least, most⟩ := choice
  unfold readChoice
  rw [whole]
  exact if_pos ⟨least, most⟩

theorem readChoice_of_refused {count : Nat} {line : String}
    (refused : ∀ k, ¬ IsChoice count line k) : readChoice count line = none := by
  unfold readChoice
  cases whole : Decimal.readWhole line.toList with
  | error fault => rfl
  | ok k => exact if_neg fun range => refused k ⟨whole, range.1, range.2⟩

/-- Lines that make no choice are passed over. -/
theorem firstChoice_append {count : Nat} {before : List String}
    (refused : ∀ line ∈ before, ∀ k, ¬ IsChoice count line k) (lines : List String) :
    (firstChoice count (before ++ lines)).1 = (firstChoice count lines).1 ∧
      linesBehind count (before ++ lines) = linesBehind count lines := by
  induction before with
  | nil => exact ⟨rfl, rfl⟩
  | cons line rest ih =>
    obtain ⟨here, behind⟩ := List.forall_mem_cons.mp refused
    rw [List.cons_append, firstChoice_cons, linesBehind, readChoice_of_refused here]
    exact ih behind

/-- A requested output is chosen if it is in the list. -/
theorem choose_text (outputs : List String) (name : String) (interactive : Bool)
    (lines : List String) :
    (choose outputs (.text name) interactive lines).1 =
        (if name ∈ outputs then some name else none) ∧
      (choose outputs (.text name) interactive lines).2.1 = "" ∧
      linesLeft outputs (.text name) interactive lines = lines := by
  cases outputs with
  | nil => exact ⟨rfl, rfl, rfl⟩
  | cons first rest =>
    rw [choose_given (by simp)]
    by_cases mem : name ∈ first :: rest
    · simp [mem, linesLeft]
    · simp [mem, linesLeft]

/-- More than one output. -/
theorem exists_several {outputs : List String} (several : 1 < outputs.length) :
    ∃ first second rest, outputs = first :: second :: rest := by
  cases outputs with
  | nil => simp at several
  | cons first rest =>
    cases rest with
    | nil => simp at several
    | cons second rest => exact ⟨first, second, rest, rfl⟩

/-- With several outputs and somebody to ask, the first choice decides. -/
theorem choose_asked {outputs : List String} (several : 1 < outputs.length)
    (lines : List String) :
    (choose outputs .null true lines).1 =
        ((firstChoice outputs.length lines).1.bind fun n => outputs[n - 1]?) ∧
      linesLeft outputs .null true lines = linesBehind outputs.length lines := by
  obtain ⟨first, second, rest, rfl⟩ := exists_several several
  rw [choose_several]
  refine ⟨?_, rfl⟩
  generalize (firstChoice (first :: second :: rest).length lines).1.bind
    (fun n => (first :: second :: rest)[n - 1]?) = choice
  cases choice with
  | none => rfl
  | some name => rfl

section Select

variable {desk : Desk} {requested : Value} {interactive : Bool}

/-- Nothing is done if the outputs cannot be listed. -/
theorem select_unlisted {reason : String} (listFault : desk.listFault = some reason) :
    select desk requested interactive =
      { attempted := none, opened := none, printed := "", notices := [failed reason] } := by
  unfold select
  rw [listFault]

/-- What was tried is open unless something is wrong with it. -/
theorem opened_select (desk : Desk) (requested : Value) (interactive : Bool) :
    (select desk requested interactive).opened =
      if desk.openFault = none then (select desk requested interactive).attempted else none := by
  cases listFault : desk.listFault with
  | some reason =>
    rw [select_unlisted listFault]
    simp
  | none => rw [select_eq listFault rfl]

/-- What is over when the outputs were listed. -/
theorem over_listed (listFault : desk.listFault = none) {left : List String}
    {decision : Option String × String × List Notice}
    (decided : choose desk.outputs requested interactive desk.lines = decision)
    (rest : linesLeft desk.outputs requested interactive desk.lines = left) :
    (Sitting.over desk requested interactive).printed = decision.2.1 ∧
      (Sitting.over desk requested interactive).waiting = left ∧
      (Sitting.over desk requested interactive).tried = decision.1.toList := by
  subst rest
  unfold Sitting.over
  rw [select_eq listFault decided, if_pos listFault]
  exact ⟨rfl, rfl, rfl⟩

theorem over_unlisted (requested : Value) (interactive : Bool) (listFault : desk.listFault ≠ none) :
    (Sitting.over desk requested interactive).printed = "" ∧
      (Sitting.over desk requested interactive).waiting = desk.lines ∧
      (Sitting.over desk requested interactive).tried = [] := by
  obtain ⟨reason, fault⟩ := Option.ne_none_iff_exists'.mp listFault
  unfold Sitting.over
  rw [select_unlisted fault, if_neg listFault]
  exact ⟨rfl, rfl, rfl⟩

end Select

/-- What holds of a selection when it is over. -/
structure IsSelection (desk : Desk) (requested : Value) (interactive : Bool)
    (result : Option (String × Port)) (s : Sitting) : Prop where
  /-- It agrees with `select`. -/
  agrees : select desk requested interactive =
    { attempted := s.tried.head?, opened := result.map (·.1), printed := s.printed
      notices := s.notices }
  /-- At most one output was tried, and there is a port if that worked. -/
  once : s.tried.length ≤ 1
  opened : s.ports = if desk.openFault = none then s.tried.map Port.mk else []
  none_iff : result = none ↔ s.ports = []
  of_some : ∀ name port, result = some (name, port) →
    s.tried = [name] ∧ s.ports = [port] ∧ port.leadsTo = name
  /-- Nothing is tried without a list of outputs. -/
  unlisted : desk.listFault ≠ none → s.tried = [] ∧ s.printed = "" ∧ s.waiting = desk.lines
  /-- A requested output is tried if it is in the list, without asking. -/
  named : ∀ name, requested = .text name → s.printed = "" ∧ s.waiting = desk.lines ∧
    s.tried = if desk.listFault = none ∧ name ∈ desk.outputs then [name] else []
  /-- A single output is tried without asking. -/
  single : ∀ only, requested = .null → desk.listFault = none → desk.outputs = [only] →
    s.printed = "" ∧ s.waiting = desk.lines ∧ s.tried = [only]
  /-- Several outputs are not tried if nobody can be asked. -/
  quiet : requested = .null → 1 < desk.outputs.length → interactive = false →
    s.printed = "" ∧ s.waiting = desk.lines ∧ s.tried = []
  /-- The first line that makes a choice says which of several outputs is tried. -/
  chosen : requested = .null → desk.listFault = none → 1 < desk.outputs.length →
    interactive = true → ∀ before line behind k, desk.lines = before ++ line :: behind →
      (∀ earlier ∈ before, ∀ j, ¬ IsChoice desk.outputs.length earlier j) →
      IsChoice desk.outputs.length line k →
      s.waiting = behind ∧ ∃ name, desk.outputs[k.toNat - 1]? = some name ∧ s.tried = [name]
  /-- Without such a line the input ends. -/
  exhausted : requested = .null → desk.listFault = none → 1 < desk.outputs.length →
    interactive = true → (∀ line ∈ desk.lines, ∀ k, ¬ IsChoice desk.outputs.length line k) →
      s.waiting = [] ∧ s.tried = [] ∧ result = none

theorem isSelection_over (desk : Desk) (requested : Value) (interactive : Bool) :
    IsSelection desk requested interactive
      ((select desk requested interactive).opened.map fun name => (name, ⟨name⟩))
      (.over desk requested interactive) := by
  have opened := opened_select desk requested interactive
  have tried : (Sitting.over desk requested interactive).tried =
    (select desk requested interactive).attempted.toList := rfl
  have ports : (Sitting.over desk requested interactive).ports =
    (select desk requested interactive).opened.toList.map Port.mk := rfl
  refine ⟨?_, ?_, ?_, ?_, ?_, fun listFault => ?_, ?_, ?_, ?_, ?_, ?_⟩
  · simp [Sitting.over, Function.comp_def]
  · rw [tried]
    cases (select desk requested interactive).attempted <;> simp
  · rw [ports, tried, opened]
    split <;> simp
  · rw [ports]
    cases (select desk requested interactive).opened <;> simp
  · intro name port result
    rw [ports, tried]
    cases open? : (select desk requested interactive).opened with
    | none => simp [open?] at result
    | some other =>
      rw [open?] at result opened
      obtain ⟨rfl, rfl⟩ := Prod.mk.inj (Option.some.inj result)
      split at opened
      · exact ⟨by rw [← opened]; rfl, rfl, rfl⟩
      · cases opened
  · obtain ⟨printed, waiting, nothing⟩ :=
      over_unlisted requested interactive listFault
    exact ⟨nothing, printed, waiting⟩
  · rintro name rfl
    obtain ⟨choice, silent, left⟩ := choose_text desk.outputs name interactive desk.lines
    by_cases listFault : desk.listFault = none
    · obtain ⟨printed, waiting, one⟩ := over_listed listFault rfl left
      rw [printed, waiting, one, choice]
      refine ⟨silent, rfl, ?_⟩
      by_cases mem : name ∈ desk.outputs <;> simp [mem, listFault]
    · obtain ⟨printed, waiting, nothing⟩ := over_unlisted (.text name) interactive listFault
      exact ⟨printed, waiting, nothing.trans (if_neg fun both => listFault both.1).symm⟩
  · rintro only rfl listFault outputs
    have decided : choose desk.outputs .null interactive desk.lines =
        (some only, "", [⟨.info, "One MIDI output found - using '" ++ only ++ "'"⟩]) := by
      rw [outputs]
      rfl
    have left : linesLeft desk.outputs .null interactive desk.lines = desk.lines := by
      rw [outputs]
      rfl
    exact over_listed listFault decided left
  · rintro rfl several rfl
    by_cases listFault : desk.listFault = none
    · obtain ⟨first, second, rest, outputs⟩ := exists_several several
      have decided : choose desk.outputs .null false desk.lines =
          (none, "", [⟨.error, "Several MIDI outputs found and no device name given: " ++
            listed desk.outputs⟩]) := by
        rw [outputs]
        rfl
      have left : linesLeft desk.outputs .null false desk.lines = desk.lines := by
        rw [outputs]
        rfl
      exact over_listed listFault decided left
    · exact over_unlisted .null false listFault
  · rintro rfl listFault several rfl before line behind k lines refused choice
    obtain ⟨asked, left⟩ := choose_asked several desk.lines
    obtain ⟨passed, behind'⟩ := firstChoice_append refused (line :: behind)
    obtain ⟨-, waiting, one⟩ := over_listed listFault rfl left
    have inside : k.toNat - 1 < desk.outputs.length := by
      obtain ⟨-, least, most⟩ := choice
      omega
    rw [waiting, one, asked, lines, passed, behind', firstChoice_cons, linesBehind,
      readChoice_of_isChoice choice]
    refine ⟨rfl, desk.outputs[k.toNat - 1], List.getElem?_eq_getElem inside, ?_⟩
    simp [inside]
  · rintro rfl listFault several rfl refused
    obtain ⟨asked, left⟩ := choose_asked several desk.lines
    obtain ⟨nothing, behind⟩ := firstChoice_append refused []
    obtain ⟨-, waiting, one⟩ := over_listed listFault rfl left
    rw [List.append_nil] at nothing behind
    have untried : (Sitting.over desk .null true).tried = [] := by
      rw [one, asked, nothing]
      simp [firstChoice]
    refine ⟨?_, untried, ?_⟩
    · rw [waiting, behind]
      rfl
    · rw [opened, Option.toList_eq_nil_iff.mp (tried.symm.trans untried)]
      simp

/-- **A selection ends with at most one output tried**, whatever the outputs, the request, the lines
on the console and what goes wrong: it raises nothing, and what it tried, read and returned is what
`IsSelection` says. -/
theorem selection_over (desk : Desk) (requested : Value) (interactive : Bool) :
    ∃ result s, selecting desk requested interactive (.start desk.lines) = (.ok result, s) ∧
      IsSelection desk requested interactive result s :=
  ⟨_, _, run_selecting desk requested interactive, isSelection_over desk requested interactive⟩

end Keysong.Device
