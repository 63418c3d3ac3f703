import Keysong.Proofs.MachineNumber
import Keysong.Proofs.Positions

/-!
# Groups, run by run

A member of a group is read like a word.  Its letters are not played one by one: they are kept until
a rest or the end of the member, and struck together there.  What comes out is what the runs of the
member say: the events at its positions are cut wherever a rest stands, every rest stays where it
is, and every run of notes between two cuts becomes one chord.

## Main Definitions

* `firstOfEach` — the pitches of a row that share their number with no earlier one
* `Compiler.runsOf` — the events of a member, cut into rests and runs of notes
* `Fuses` — what becomes of one of the pieces

## Main Statements

* `firstStrikes_eq` — a chord keeps the first pitch of each number
* `le_loudest` — no velocity of a row is larger than the largest
* `fuses_chordsFrom` — the chords of a member are those of its runs
* `group_by_runs` — so are the events of a group, member by member

### Why the two places where letters are struck agree

Letters that are kept are a run that has not ended.  Put in front of what is still to be read, they
are cut off by the next rest, or by the end of the member, exactly where they are struck.
-/

namespace Keysong

open Decimal

/-! ## The pitches of a chord -/

/-- The pitches of a row that share their number with no earlier one, in their order. -/
def firstOfEach (ps : List Pitch) : List Pitch :=
  (List.range ps.length).filterMap fun i =>
    ps[i]?.filter fun p => (ps.take i).all fun earlier => earlier.number ≠ p.number

/-- The first pitch is the first of its number, and of the others those that are and that do not
share it. -/
theorem firstOfEach_cons (p : Pitch) (ps : List Pitch) :
    firstOfEach (p :: ps) = p :: (firstOfEach ps).filter fun q => q.number ≠ p.number := by
  unfold firstOfEach
  rw [List.length_cons, List.range_succ_eq_map, List.filterMap_cons, List.filterMap_map,
    List.filter_filterMap]
  refine congrArg (p :: ·) (congrArg (List.filterMap · _) (funext fun i => ?_))
  show Option.filter _ ps[i]? = _
  rw [Option.filter_filter]
  simp [List.take_succ_cons, Bool.and_comm, eq_comm]

/-- **A chord keeps the first pitch of each number.** -/
theorem firstStrikes_eq (ps : List Pitch) : firstStrikes ps = firstOfEach ps := by
  induction ps with
  | nil => rfl
  | cons p ps ih => rw [firstStrikes, firstOfEach_cons, ih]

/-- The number of every pitch is kept. -/
theorem number_mem_firstStrikes {ps : List Pitch} {p : Pitch} (mem : p ∈ ps) :
    p.number ∈ (firstStrikes ps).map Pitch.number := by
  induction ps with
  | nil => cases mem
  | cons q ps ih =>
    by_cases same : p.number = q.number
    · exact same ▸ List.mem_map_of_mem List.mem_cons_self
    · have behind : p ∈ ps := (List.mem_cons.mp mem).resolve_left fun h => same (h ▸ rfl)
      obtain ⟨r, kept, number⟩ := List.mem_map.mp (ih behind)
      have other : r.number ≠ q.number := number ▸ same
      exact List.mem_map.mpr ⟨r, List.mem_cons_of_mem q
        (List.mem_filter.mpr ⟨kept, decide_eq_true other⟩), number⟩

/-! ## The velocity of a chord -/

/-- **No velocity of a row is larger than the largest**, if all lie between zero and one. -/
theorem le_loudest {first : Float} {rest : List Float}
    (unit : ∀ v ∈ first :: rest, 0 ≤ v ∧ v ≤ 1) : ∀ v ∈ first :: rest, v ≤ loudest first rest := by
  have top : 0 ≤ loudest first rest ∧ loudest first rest ≤ 1 := unit _ (loudest_mem first rest)
  suffices ranked : ∀ v ∈ first :: rest, rank v ≤ rank (loudest first rest) from fun v mem =>
    (le_iff_rank (unit v mem).1 (unit v mem).2 top.1 top.2).mpr (ranked v mem)
  clear top
  induction rest generalizing first with
  | nil => simp [loudest]
  | cons w rest ih =>
    obtain ⟨here, next, behind⟩ : (0 ≤ first ∧ first ≤ 1) ∧ (0 ≤ w ∧ w ≤ 1) ∧
        ∀ v ∈ rest, 0 ≤ v ∧ v ≤ 1 := by simpa using unit
    have decided := lt_iff_rank here.1 here.2 next.1 next.2
    rw [loudest, List.foldl_cons]
    -- the better of the first two stands for both
    by_cases louder : first < w
    · have above := ih (List.forall_mem_cons.mpr ⟨next, behind⟩)
      rw [if_pos louder]
      exact List.forall_mem_cons.mpr
        ⟨(decided.mp louder).le.trans (above w List.mem_cons_self), above⟩
    · have above := ih (List.forall_mem_cons.mpr ⟨here, behind⟩)
      have top := above first List.mem_cons_self
      rw [if_neg louder]
      exact List.forall_mem_cons.mpr ⟨top, List.forall_mem_cons.mpr
        ⟨(not_lt.mp (mt decided.mpr louder)).trans top, fun v mem =>
          above v (List.mem_cons_of_mem first mem)⟩⟩

/-! ## Runs -/

namespace Event

/-- Whether an event is a single note. -/
def isNote : Event → Bool
  | note .. => true
  | _ => false

end Event

namespace Strikes

/-- The notes of a row of letters. -/
def notes (duration : NoteValue) (strikes : Strikes) : List Event :=
  strikes.map fun s => .note s.1 duration s.2

end Strikes

/-- Notes side by side belong together; a rest belongs to nothing. -/
def together (e f : Event) : Bool := e.isNote && f.isNote

/-- The events at the positions of a member, cut into rests and runs of notes that are as long as
they can be. -/
def Compiler.runsOf (c : Compiler) (duration : NoteValue) (member : List Char) :
    List (List Event) :=
  (c.eventsAt duration member).splitBy together

/-- What becomes of a piece of a member: a rest stays, and a run becomes a chord.  The chord has the
pitches of the run in their order, each number at its first place, and the largest velocity. -/
inductive Fuses (duration : NoteValue) : List Event → Event → Prop
  | rest (d : NoteValue) : Fuses duration [.rest d] (.rest d)
  | chord {run : Strikes} {ps : List Pitch} {velocity : Float} (some : run ≠ [])
      (firsts : ps = firstOfEach (run.map (·.1)))
      (struck : ∀ s ∈ run, s.1.number ∈ ps.map Pitch.number)
      (reached : velocity ∈ run.map (·.2)) (loudest : ∀ s ∈ run, s.2 ≤ velocity) :
      Fuses duration (run.notes duration) (.chord ps duration velocity)

variable {duration : NoteValue}

/-- A rest is cut off from what is in front of it and from what is behind it. -/
theorem splitBy_rest (before behind : List Event) (d : NoteValue) :
    (before ++ .rest d :: behind).splitBy together =
      before.splitBy together ++ [.rest d] :: behind.splitBy together := by
  have alone : (Event.rest d :: behind).splitBy together =
      [.rest d] :: behind.splitBy together := by
    refine @List.splitBy_append _ together [.rest d] behind fun e mem f _ => ?_
    rw [List.getLast?_singleton, Option.mem_some_iff] at mem
    exact mem ▸ Bool.false_and f.isNote
  rw [List.splitBy_append_cons behind fun e _ => Bool.and_false e.isNote, alone]

/-- A row of letters is a single run, or none if it is empty. -/
theorem fuses_struckChord {strikes : Strikes} (unit : ∀ s ∈ strikes, 0 ≤ s.2 ∧ s.2 ≤ 1) :
    List.Forall₂ (Fuses duration) ((strikes.notes duration).splitBy together)
      (strikes.struckChord duration) := by
  cases strikes with
  | nil => exact .nil
  | cons first rest =>
    have chain : (Strikes.notes duration (first :: rest)).IsChain fun e f => together e f :=
      List.Pairwise.isChain (List.pairwise_map.mpr (List.pairwise_of_forall fun s t => rfl))
    have velocities : ∀ v ∈ first.2 :: rest.map (·.2), 0 ≤ v ∧ v ≤ 1 :=
      List.forall_mem_cons.mpr ⟨unit first List.mem_cons_self,
        List.forall_mem_map.mpr fun s mem => unit s (List.mem_cons_of_mem first mem)⟩
    have top := le_loudest velocities
    have single : (Strikes.notes duration (first :: rest)).splitBy together =
        [Strikes.notes duration (first :: rest)] :=
      List.splitBy_of_isChain (List.cons_ne_nil _ _) chain
    rw [single]
    refine .cons (.chord (List.cons_ne_nil first rest) (firstStrikes_eq _) ?_ ?_ ?_) .nil
    · exact fun s mem => number_mem_firstStrikes (List.mem_map_of_mem mem)
    · exact loudest_mem _ _
    · exact fun s mem => top s.2 (List.mem_map_of_mem mem)

/-- **The chords of a member are those of its runs.**  The letters that are kept are the beginning
of the first run. -/
theorem fuses_chordsFrom {c : Compiler} {pending : Strikes} {items : List Item}
    (kept : ∀ s ∈ pending, 0 ≤ s.2 ∧ s.2 ≤ 1) (scans : ∀ item ∈ items, c.Scans item) :
    List.Forall₂ (Fuses duration)
      ((pending.notes duration ++ items.filterMap (Item.event? duration)).splitBy together)
      (chordsFrom duration pending items) := by
  induction items generalizing pending with
  | nil =>
    rw [List.filterMap_nil, List.append_nil]
    exact fuses_struckChord kept
  | cons item items ih =>
    obtain ⟨here, behind⟩ := List.forall_mem_cons.mp scans
    cases item with
    | rest d =>
      have cut := splitBy_rest (pending.notes duration) (items.filterMap (Item.event? duration)) d
      rw [List.filterMap_cons, Item.event?, cut]
      exact List.rel_append (fuses_struckChord kept)
        (.cons (.rest d) (@ih [] (by simp) behind))
    | struck pitch velocity =>
      have longer := @ih (pending ++ [(pitch, velocity)])
        (List.forall_mem_append.mpr ⟨kept, List.forall_mem_singleton.mpr here.2⟩) behind
      rw [Strikes.notes, List.map_append, List.append_assoc] at longer
      exact longer
    | skipped x => exact ih kept behind

/-- **The events of a group are those of its runs.**  Compiling a group with members never fails.
The pacing gives one length for their number, whether they have letters or not; and the events are
those of the members one after the other, in each of which a rest stays where it is and a run of
notes becomes one chord of that length. -/
theorem group_by_runs (c : Compiler) (members : List (List Char)) (some : members ≠ []) :
    ∃ duration parts, c.pacing.durationFor members.length = .ok duration ∧
      c.groupEvents members = .ok parts.flatten ∧
      List.Forall₂ (fun member part =>
        List.Forall₂ (Fuses duration) (c.runsOf duration member) part) members parts := by
  refine ⟨c.groupValue members,
    members.map fun member => chordsFrom (c.groupValue members) [] (c.scan member),
    c.pacing.durationFor_of_pos (List.length_pos_iff.mpr some), ?_, ?_⟩
  · rw [c.groupEvents_eq, Compiler.eventsOf, List.flatMap_def]
  · refine List.forall₂_map_right_iff.mpr (List.forall₂_same.mpr fun member _ => ?_)
    unfold Compiler.runsOf
    rw [← c.filterMap_scan]
    exact @fuses_chordsFrom _ c [] _ (by simp) (c.scans_of_mem_scan member)

/-- A member that begins and ends with rests and whose letters strike one number in three ways, and
one without letters. -/
theorem group_by_runs_mixed :
    ["-d'fF.?a".toList, "1".toList] ≠ [] ∧
      ∃ duration parts, Compiler.standard.pacing.durationFor 2 = .ok duration ∧
        Compiler.standard.groupEvents ["-d'fF.?a".toList, "1".toList] = .ok parts.flatten ∧
        List.Forall₂ (fun member part => List.Forall₂ (Fuses duration)
          (Compiler.standard.runsOf duration member) part) ["-d'fF.?a".toList, "1".toList] parts :=
  ⟨by decide, group_by_runs .standard ["-d'fF.?a".toList, "1".toList] (by decide)⟩

end Keysong
