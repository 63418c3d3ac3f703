import Keysong.Fault
import Keysong.Text.Blank

/-!
# Grammars

The four characters that give a text its structure, and what the case of a letter says about its
loudness.

## Main Definitions

* `Grammar` — four distinct markers and three velocities
* `Grammar.Draft` — what a grammar is asked for with, before it is checked
* `Grammar.ofDraft` — the check
-/

namespace Keysong

open Keysong.Text

/-- The markers of a notation, and its dynamics. -/
structure Grammar where
  groupOpen : Char
  groupClose : Char
  /-- Nothing if the marker is one that no text can hold. -/
  raiseMarker : Option Char
  lowerMarker : Option Char
  /-- Whether capital letters are accented and small ones soft. -/
  caseDynamics : Bool
  accent : Float
  soft : Float
  /-- The velocity of all letters when their case says nothing. -/
  level : Float
  distinct : (groupOpen :: groupClose :: (raiseMarker.toList ++ lowerMarker.toList)).Nodup
  visible : ∀ m ∈ groupOpen :: groupClose :: (raiseMarker.toList ++ lowerMarker.toList),
    isBlank m = false
  normal : ∀ v ∈ [accent, soft, level], 0 ≤ v ∧ v ≤ 1

namespace Grammar

/-- The characters with a meaning of their own. -/
def markers (g : Grammar) : List Char :=
  g.groupOpen :: g.groupClose :: (g.raiseMarker.toList ++ g.lowerMarker.toList)

/-- The velocities that a letter can have. -/
def velocities (g : Grammar) : List Float := [g.accent, g.soft, g.level]

/-- What a grammar is asked for with. -/
structure Draft where
  groupOpen : Value := .text "("
  groupClose : Value := .text ")"
  raiseMarker : Value := .text "'"
  lowerMarker : Value := .text ","
  caseDynamics : Bool := true
  accent : Float := 1.0
  soft : Float := 0.5
  level : Float := 0.8

/-- A character that can be seen. -/
abbrev Visible : Type := { c : Char // isBlank c = false }

/-- The fault of a collection in place of a marker. -/
def collectionFault (value : Value) (size : Nat) : Fault :=
  if size = 1 then .markerNotText value else .markerNotSingle value

/-- The marker that a value stands for: a text of one character that is not blank.  A half of a
surrogate pair and a byte are markers as well, but no text can hold them. -/
def markerOf (value : Value) : Except Fault (Option Visible) :=
  match value with
  | .text s =>
    match s.toList with
    | [c] => if h : isBlank c = false then .ok (some ⟨c, h⟩) else .error (.markerNotSingle value)
    | _ => .error (.markerNotSingle value)
  | .ragged points =>
    if points.length = 1 then .ok none else .error (.markerNotSingle value)
  | .bytes contents =>
    match contents with
    | [b] =>
      if b = 0x20 ∨ (0x9 ≤ b ∧ b ≤ 0xD) then .error (.markerNotSingle value) else .ok none
    | _ => .error (.markerNotSingle value)
  | .list items => .error (collectionFault value items.length)
  | .set members => .error (collectionFault value members.length)
  | .mapping entries => .error (collectionFault value entries.length)
  | .loop .. => .error (.markerNotText value)
  | _ => .error (.markerWithoutLength value)

/-- The marker of a group, which has to be a character. -/
def groupMarkerOf (value : Value) : Except Fault Visible := do
  match ← markerOf value with
  | some marker => return marker
  | none => throw (.markerNotText value)

/-- The character of a marker. -/
def characterOf (marker : Option Visible) : Option Char := marker.map (·.1)

theorem visible_of_mem_characterOf {marker : Option Visible} {m : Char}
    (h : m ∈ (characterOf marker).toList) : isBlank m = false := by
  cases marker with
  | none => simp [characterOf] at h
  | some v =>
    simp only [characterOf, Option.map_some, Option.toList_some, List.mem_singleton] at h
    rw [h]
    exact v.2

/-- The grammar of a draft.  The markers are looked at one by one, then together; the velocities
come last. -/
def ofDraft (d : Draft) : Except Fault Grammar := do
  let ⟨groupOpen, open_visible⟩ ← groupMarkerOf d.groupOpen
  let ⟨groupClose, close_visible⟩ ← groupMarkerOf d.groupClose
  let raiseMarker ← markerOf d.raiseMarker
  let lowerMarker ← markerOf d.lowerMarker
  let markers := groupOpen :: groupClose ::
    ((characterOf raiseMarker).toList ++ (characterOf lowerMarker).toList)
  let sameOutside := raiseMarker.isNone && lowerMarker.isNone &&
    Value.sameKey d.raiseMarker d.lowerMarker
  let clash := Fault.markersNotDistinct [d.groupOpen, d.groupClose, d.raiseMarker, d.lowerMarker]
  if sameOutside then throw clash
  else if distinct : markers.Nodup then
    match loud : [d.accent, d.soft, d.level].find? fun v => !decide (0 ≤ v ∧ v ≤ 1) with
    | some v => throw (.velocityOutOfRange v)
    | none =>
      return { groupOpen, groupClose, distinct
               raiseMarker := characterOf raiseMarker
               lowerMarker := characterOf lowerMarker
               caseDynamics := d.caseDynamics
               accent := d.accent
               soft := d.soft
               level := d.level
               visible := by
                 intro m hm
                 rcases List.mem_cons.1 hm with rfl | hm
                 · exact open_visible
                 rcases List.mem_cons.1 hm with rfl | hm
                 · exact close_visible
                 rcases List.mem_append.1 hm with hm | hm <;> exact visible_of_mem_characterOf hm
               normal := by simpa [List.find?_eq_none] using loud }
  else throw clash

/-- Round brackets, an apostrophe to raise and a comma to lower. -/
def standard : Grammar where
  groupOpen := '('
  groupClose := ')'
  raiseMarker := some '\''
  lowerMarker := some ','
  caseDynamics := true
  accent := 1.0
  soft := 0.5
  level := 0.8
  distinct := by decide
  visible := by
    simp only [Option.toList_some, List.cons_append, List.nil_append, List.mem_cons,
      List.not_mem_nil, or_false, forall_eq_or_imp, forall_eq]
    decide
  normal := by
    simp only [List.mem_cons, List.not_mem_nil, or_false, forall_eq_or_imp, forall_eq]
    decide +kernel

/-- The velocity that the case of a letter asks for. -/
def velocityOf (g : Grammar) (isCapital : Bool) : Float :=
  if g.caseDynamics then (if isCapital then g.accent else g.soft) else g.level

theorem velocityOf_mem (g : Grammar) (isCapital : Bool) :
    g.velocityOf isCapital ∈ g.velocities := by
  cases isCapital <;> cases h : g.caseDynamics <;> simp [velocityOf, velocities, h]

end Grammar

end Keysong
