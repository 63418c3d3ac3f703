import Keysong.Text.Base64
import Keysong.Yaml.Instant
import Keysong.Yaml.Node
import Keysong.Yaml.Number

/-!
# Reading settings files

From the node of a settings file to its value.  An empty file is null.  A key that is there twice
keeps its last value.

## Main Definitions

* `scalarValue` — the value of a scalar with a tag
* `Found` — a value, or the fault that counts of all that were found
* `Meaning`, `meaning` — all that a node can be used as
* `Document.value` — the value of a document
* `read` — the value of a file

## Design Notes

A file is looked through from the outside in: everything that is wrong on one level is found before
anything on a deeper one.  So a fault is kept with its depth, and of several the least deep one
counts, and among those the first.
-/

namespace Keysong.Yaml

open Keysong.Text

/-! ### Scalars -/

/-- The truth value of a word, in any letters. -/
def truthOf (text : List CodePoint) : Except Fault Value :=
  let word := String.ofList (visible (smallPoints text))
  if trueWords.contains word then .ok (.bool true)
  else if falseWords.contains word then .ok (.bool false)
  else .error (.noTruthWord (Value.ofPoints text))

/-- The bytes of a text in base 64. -/
def bytesOf (text : List CodePoint) : Except Fault Value :=
  let characters := visible text
  if characters.all fun c => decide (c.toNat < 128) then
    match Base64.decode? characters with
    | some contents => .ok (.bytes contents)
    | none => .error (malformed "failed to decode base64 data")
  else .error (malformed "failed to convert base64 data into ascii")

/-- The fault of a tag that no value has. -/
def noValue : Fault := malformed "could not determine a constructor for the tag"

/-- The value of a scalar. -/
def scalarValue (tag : Tag) (text : List CodePoint) : Except Fault Value :=
  match tag with
  | .null => .ok .null
  | .truth => truthOf text
  | .integer => (wholeOf text).map .int
  | .number => (doubleOf text).map .float
  | .bytes => bytesOf text
  | .moment => instantOf text
  | .text => .ok (Value.ofPoints text)
  | _ => .error noValue

/-! ### Faults by depth -/

/-- A fault, and how deep it lies below a node. -/
structure DeepFault where
  depth : Nat
  fault : Fault

/-- A value, or the fault that counts. -/
abbrev Found (α : Type) : Type := Except DeepFault α

namespace Found

/-- What is found at a node itself. -/
def here (found : Except Fault α) : Found α := found.mapError fun fault => ⟨0, fault⟩

/-- What is found one level below. -/
def below (found : Found α) : Found α := found.mapError fun f => { f with depth := f.depth + 1 }

/-- What is found in two places.  Of two faults the less deep one counts, and the first if they are
equally deep. -/
def both (combine : α → β → γ) (first : Found α) (second : Found β) : Found γ :=
  match first, second with
  | .ok a, .ok b => .ok (combine a b)
  | .error f, .ok _ => .error f
  | .ok _, .error g => .error g
  | .error f, .error g => .error (if g.depth < f.depth then g else f)

end Found

/-- An entry of a mapping. -/
structure Entry where
  key : Found Value
  value : Found Value

/-- What is found in a row of entries. -/
def entriesFound : List Entry → Found (List (Value × Value))
  | [] => .ok []
  | e :: rest =>
    Found.both (fun entry entries => entry :: entries) (Found.both Prod.mk e.key e.value)
      (entriesFound rest)

/-- A mapping of entries, later ones winning. -/
def mappingOf (entries : List (Value × Value)) : Value :=
  .mapping (entries.foldl (fun m (key, v) => Value.put m key v) [])

/-- The set of the keys of entries. -/
def setOf (entries : List (Value × Value)) : Value :=
  .set (entries.foldl (fun members (key, _) => Value.join members key) [])

/-- What is found in the body of a mapping. -/
def Found.bodyOf (entries : Except Fault (List Entry)) : Found (List (Value × Value)) :=
  Found.below (Found.here entries >>= entriesFound)

/-- Whether a tag is that of a collection. -/
def Tag.isCollection : Tag → Bool
  | .sequence | .pairs | .mapping | .set => true
  | _ => false

/-! ### Meanings -/

/-- All that a node can be used as. -/
structure Meaning where
  tag : Tag
  /-- Its value. -/
  value : Found Value
  /-- What it is as a key. -/
  key : Found Value
  /-- The text that it can be read as. -/
  text : Option (List CodePoint)
  /-- The one entry that it has, as a pair. -/
  pair : Option (Found Value)
  /-- Its entries, if it is a mapping. -/
  entries : Option (Except Fault (List Entry))
  /-- What it offers to a mapping that takes entries from it. -/
  offered : Except Fault (List Entry)

/-- The fault of a value that cannot be a key. -/
def unhashable : DeepFault := ⟨0, malformed "found unhashable key"⟩

/-- The tag of a key.  The word that makes its mapping a scalar is a text. -/
def keyTag (tag : Tag) : Tag := if tag = .equals then .text else tag

/-- A key, which has to be a value that can be one.  No collection can, whatever is in it. -/
def keyFound (tag : Tag) (found : Found Value) : Found Value :=
  if tag.isCollection then .error unhashable
  else
    match found with
    | .ok v => if v.canBeKey then .ok v else .error unhashable
    | .error f => .error f

/-- The value of a node where a scalar is needed. -/
def scalarFound (tag : Tag) (text : Option (List CodePoint)) : Found Value :=
  Found.here <|
    match text with
    | some text => scalarValue tag text
    | none => .error (malformed "expected a scalar node")

/-- What is found where a sequence or a mapping is needed, and is not there. -/
def wrongCollection : Found Value := .error ⟨1, malformed "expected another kind of node"⟩

/-- The meaning of a scalar. -/
def scalarMeaning (tag : Tag) (text : List CodePoint) : Meaning :=
  let valueAs (tag : Tag) : Found Value :=
    if tag.isCollection then wrongCollection else scalarFound tag (some text)
  { tag
    value := valueAs tag
    key := keyFound (keyTag tag) (valueAs (keyTag tag))
    text := some text
    pair := none
    entries := none
    offered := .error (malformed "expected a mapping or list of mappings for merging") }

/-- The values of a row of nodes. -/
def valuesFound : List Meaning → Found (List Value)
  | [] => .ok []
  | m :: rest => Found.both (fun v vs => v :: vs) m.value (valuesFound rest)

/-- The pairs of a row of mappings with one entry each. -/
def pairsFound : List Meaning → Found (List Value)
  | [] => .ok []
  | m :: rest =>
    match m.pair with
    | some pair => Found.both (fun p ps => p :: ps) pair (pairsFound rest)
    | none => .error ⟨0, malformed "expected a mapping of length 1"⟩

/-- The entries that a row of mappings offers.  Of several mappings the first one wins, so it comes
last. -/
def offeredByAll : List Meaning → Except Fault (List Entry)
  | [] => .ok []
  | m :: rest => do
    match m.entries with
    | some entries =>
      let first ← entries
      return (← offeredByAll rest) ++ first
    | none => throw (malformed "expected a mapping for merging")

/-- The meaning of a sequence. -/
def sequenceMeaning (tag : Tag) (items : List Meaning) : Meaning :=
  let valueAs (tag : Tag) : Found Value :=
    match tag with
    | .sequence => Found.below ((valuesFound items).map Value.list)
    | .pairs => Found.below ((pairsFound items).map Value.list)
    | _ => if tag.isCollection then wrongCollection else scalarFound tag none
  { tag
    value := valueAs tag
    key := keyFound (keyTag tag) (valueAs (keyTag tag))
    text := none
    pair := none
    entries := none
    offered := offeredByAll items }

/-- The entries that a mapping takes from others. -/
def takenEntries : List (Meaning × Meaning) → Except Fault (List Entry)
  | [] => .ok []
  | (key, v) :: rest => do
    let first ← if key.tag = .merge then v.offered else .ok []
    return first ++ (← takenEntries rest)

/-- The entries that are a mapping's own. -/
def ownEntries (entries : List (Meaning × Meaning)) : List Entry :=
  (entries.filter fun (key, _) => key.tag != .merge).map fun (key, v) => ⟨key.key, v.value⟩

/-- The text that a mapping can be read as: that of its first key for that. -/
def mappingText (entries : List (Meaning × Meaning)) : Option (List CodePoint) :=
  (entries.find? fun (key, _) => key.tag == .equals).bind fun (_, v) => v.text

/-- The meaning of a mapping.  The entries that it takes from others come first. -/
def mappingMeaning (tag : Tag) (entries : List (Meaning × Meaning)) : Meaning :=
  let all : Except Fault (List Entry) := do return (← takenEntries entries) ++ ownEntries entries
  let text := mappingText entries
  let valueAs (tag : Tag) : Found Value :=
    match tag with
    | .mapping => (Found.bodyOf all).map mappingOf
    | .set => (Found.bodyOf all).map setOf
    | .moment =>
      if text.isSome then .error ⟨0, .momentNotText⟩ else scalarFound tag none
    | _ => if tag.isCollection then wrongCollection else scalarFound tag text
  { tag
    value := valueAs tag
    key := keyFound (keyTag tag) (valueAs (keyTag tag))
    text
    pair :=
      match entries with
      | [(key, v)] => some (Found.both Value.pair key.value v.value)
      | _ => none
    entries := some all
    offered := all }

/-- The meaning of a collection inside of itself. -/
def loopMeaning (isMapping : Bool) (between : Nat) : Meaning :=
  { tag := .unknown
    value := .ok (.loop isMapping between)
    key := .error unhashable
    text := none
    pair := none
    entries := if isMapping then some (.ok []) else none
    offered := .ok [] }

mutual

/-- The meaning of a node, given those of the names in it. -/
def meaning (names : List (String × Meaning)) : Node → Meaning
  | .scalar tag text => scalarMeaning tag text
  | .sequence tag items => sequenceMeaning tag (meanings names items)
  | .mapping tag entries => mappingMeaning tag (entryMeanings names entries)
  | .alias name => (names.lookup name).getD (scalarMeaning .null [])
  | .enclosing isMapping between => loopMeaning isMapping between

/-- The meanings of a row of nodes. -/
def meanings (names : List (String × Meaning)) : List Node → List Meaning
  | [] => []
  | node :: rest => meaning names node :: meanings names rest

/-- The meanings of a row of entries. -/
def entryMeanings (names : List (String × Meaning)) : List (Node × Node) → List (Meaning × Meaning)
  | [] => []
  | (key, v) :: rest => (meaning names key, meaning names v) :: entryMeanings names rest

end

/-! ### Documents -/

/-- The meanings of the nodes with names.  Names in a node stand for nodes that are complete before
it. -/
def Document.names (d : Document) : List (String × Meaning) :=
  d.anchors.foldl (fun names (name, node) => (name, meaning names node) :: names) []

/-- The value of a document.  An empty one is null. -/
def Document.value (d : Document) : Except Fault Value :=
  match d.root with
  | none => .ok .null
  | some root => (meaning d.names root).value.mapError DeepFault.fault

/-- The value of a file. -/
def read (text : List Char) : Except Fault Value := do
  (← Document.ofTokens (tokensOf text)).value

end Keysong.Yaml
