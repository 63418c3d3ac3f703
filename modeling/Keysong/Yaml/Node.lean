import Keysong.Yaml.Tag
import Keysong.Yaml.Token

/-!
# Nodes

From the tokens of a settings file to the tree of its scalars and collections.  A file holds one
document, which may be empty.  A node can be given a name by an anchor, and stands wherever an alias
has that name.

## Main Definitions

* `Node` — a scalar, a collection or an alias
* `Document` — the nodes with names, and the root
* `Reading` — a step from tokens to nodes
* `node` and the steps beside it — the collections and scalars of a file
* `Document.ofTokens` — the document of a file

## Design Notes

No name is given twice, so an alias can be left in the tree: what it stands for is found in the
document, and is there once, however often its name is used.  Only an alias inside of the collection
that it names is turned into something else, because that collection has no end.

Tokens are looked at no earlier than needed, because one of them can be a fault in the text, which
counts only once it is reached.
-/

namespace Keysong.Yaml

open Keysong.Text

/-- A scalar, a collection or an alias. -/
inductive Node where
  | scalar (tag : Tag) (text : List CodePoint)
  | sequence (tag : Tag) (items : List Node)
  | mapping (tag : Tag) (entries : List (Node × Node))
  | alias (name : String)
  /-- A collection that this node is itself inside of.  The number tells how many others lie
  between. -/
  | enclosing (isMapping : Bool) (between : Nat)
  deriving Repr

/-- What is not there is null. -/
def Node.absent : Node := .scalar .null []

/-- What a file holds. -/
structure Document where
  /-- The nodes with names, in the order in which they are complete. -/
  anchors : List (String × Node)
  /-- The node of the document, if there is one. -/
  root : Option Node

/-- What a name was given to. -/
inductive Anchored where
  | complete (node : Node)
  /-- A collection that is still being read, and how many there are around it. -/
  | opened (isMapping : Bool) (depth : Nat)

/-- Where the reading of a document stands. -/
structure Draft where
  tokens : List Token
  /-- What the handles of tags stand for. -/
  handles : List (String × String)
  /-- What has a name, the latest first. -/
  anchors : List (String × Anchored)

/-- A step from tokens to nodes. -/
abbrev Reading (α : Type) : Type := StateT Draft (Except Fault) α

namespace Reading

/-- The next token, if there is one. -/
def peek : Reading (Option Token) := do
  match (← get).tokens with
  | .broken fault :: _ => throw fault
  | tokens => return tokens.head?

/-- Drops the next token. -/
def advance : Reading Unit := modify fun d => { d with tokens := d.tokens.drop 1 }

/-- Whether the next token is of a kind. -/
def isNext (kind : Token → Bool) : Reading Bool := do
  return ((← peek).map kind).getD false

/-- Drops the next token if it is of a kind. -/
def accept (kind : Token → Bool) : Reading Bool := do
  let isNext ← isNext kind
  if isNext then advance
  return isNext

/-- Ends the reading: another token was expected. -/
def refuse (reason : String) : Reading α := throw (malformed reason)

end Reading

open Reading

/-! ### Kinds of tokens -/

/-- The dash before an item. -/
def isItem : Token → Bool
  | .item => true
  | _ => false

/-- The mark before a key. -/
def isKey : Token → Bool
  | .key => true
  | _ => false

/-- The mark before a value. -/
def isValue : Token → Bool
  | .value => true
  | _ => false

/-- The end of a block collection. -/
def isBlockEnd : Token → Bool
  | .blockEnd => true
  | _ => false

/-- A comma between brackets. -/
def isComma : Token → Bool
  | .comma => true
  | _ => false

/-- The end of a flow sequence. -/
def isSequenceEnd : Token → Bool
  | .flowSequenceEnd => true
  | _ => false

/-- The end of a flow mapping. -/
def isMappingEnd : Token → Bool
  | .flowMappingEnd => true
  | _ => false

/-- The end of a document. -/
def isDocumentEnd : Token → Bool
  | .documentEnd => true
  | _ => false

/-- What shows that nothing stands behind the dash of an item. -/
def endsItem (t : Token) : Bool := isItem t || isBlockEnd t

/-- What shows that nothing stands behind the mark of an entry. -/
def endsEntry (t : Token) : Bool := isKey t || isValue t || isBlockEnd t

/-! ### Labels -/

/-- What stands in front of a node. -/
structure Labels where
  anchor : Option String := none
  tag : Option WrittenTag := none

/-- The labels in front of a node: an anchor and a tag, in any order. -/
def labels : Reading Labels := do
  match ← peek with
  | some (.anchor name) =>
    advance
    match ← peek with
    | some (.tag tag) =>
      advance
      return ⟨some name, some tag⟩
    | _ => return ⟨some name, none⟩
  | some (.tag tag) =>
    advance
    match ← peek with
    | some (.anchor name) =>
      advance
      return ⟨some name, some tag⟩
    | _ => return ⟨none, some tag⟩
  | _ => return {}

/-- The name of a tag, its handle replaced by what it stands for. -/
def tagName (tag : WrittenTag) : Reading String := do
  match tag.handle with
  | none => return tag.suffix
  | some handle =>
    match (← get).handles.lookup handle with
    | some meaning => return meaning ++ tag.suffix
    | none => refuse "found undefined tag handle"

/-- The tag that a name stands for.  The exclamation mark alone leaves a node to its form. -/
def specific? (name : Option String) : Option Tag :=
  match name with
  | none => none
  | some name => if name == "!" then none else some (Tag.ofName name)

/-- The tag of a scalar.  Without a specific one, a text between marks is a text, unless it is told to
be left to its form. -/
def scalarTag (name : Option String) (text : List CodePoint) (isPlain : Bool) : Tag :=
  match specific? name with
  | some tag => tag
  | none =>
    if isPlain || name.isSome then ((asCharacters? text).map Tag.ofWord).getD .text else .text

/-- Whether a name was given to a node before. -/
def isBound (anchor : Option String) : Reading Bool := do
  let anchors := (← get).anchors
  return (anchor.bind fun name => anchors.lookup name).isSome

/-- Gives a node its name. -/
def bindAnchor (anchor : Option String) (anchored : Anchored) : Reading Unit :=
  match anchor with
  | none => pure ()
  | some name => modify fun d => { d with anchors := (name, anchored) :: d.anchors }

/-- A node with a name. -/
def named (anchor : Option String) (node : Node) : Reading Node := do
  bindAnchor anchor (.complete node)
  return node

/-- A collection with a name, which can stand inside of it as well. -/
def enclosed (anchor : Option String) (isMapping : Bool) (depth : Nat) (read : Reading Node) :
    Reading Node := do
  bindAnchor anchor (.opened isMapping depth)
  named anchor (← read)

/-- An alias at a depth. -/
def aliased (name : String) (depth : Nat) : Reading Node := do
  match (← get).anchors.lookup name with
  | some (.complete _) => return .alias name
  | some (.opened isMapping outer) => return .enclosing isMapping (depth - outer - 1)
  | none => refuse "found undefined alias"

/-! ### Collections -/

/-- How deeply collections can be nested. -/
def deepest : Nat := 487

mutual

/-- A scalar or a collection.  Block collections are allowed outside of brackets only, and a
sequence that is not indented only as a value. -/
def node (inBlock indentless : Bool) (depth : Nat) : Nat → Reading Node
  | 0 => throw .nestedTooDeeply
  | fuel + 1 => do
    match ← peek with
    | some (.alias name) =>
      advance
      aliased name depth
    | _ =>
      let labels ← labels
      let name ← labels.tag.mapM tagName
      let next ← peek
      let isLabelled := labels.anchor.isSome || labels.tag.isSome
      let isContent :=
        match next with
        | some (.scalar ..) | some .flowSequence | some .flowMapping => true
        | some .blockSequence | some .blockMapping => inBlock
        | some .item => indentless
        | _ => false
      if !isLabelled && !isContent then refuse "expected the node content"
      else if ← isBound labels.anchor then
        refuse "found duplicate anchor"
      else if isContent then content labels.anchor name depth fuel
      else named labels.anchor (.scalar (scalarTag name [] true) [])
termination_by structural fuel => fuel

/-- What stands behind the labels of a node. -/
def content (anchor name : Option String) (depth : Nat) : Nat → Reading Node
  | 0 => throw .nestedTooDeeply
  | fuel + 1 => do
    let sequence (items : Reading (List Node)) : Reading Node :=
      if deepest < depth then throw .nestedTooDeeply
      else enclosed anchor false depth do
        return .sequence ((specific? name).getD .sequence) (← items)
    let mapping (entries : Reading (List (Node × Node))) : Reading Node :=
      if deepest < depth then throw .nestedTooDeeply
      else enclosed anchor true depth do
        return .mapping ((specific? name).getD .mapping) (← entries)
    match ← peek with
    | some (.scalar text isPlain) =>
      advance
      let isPlain := isPlain && name.isNone
      named anchor (.scalar (scalarTag name text isPlain) text)
    | some .item => sequence (looseItems (depth + 1) fuel)
    | some .flowSequence =>
      advance
      sequence (flowItems true (depth + 1) fuel)
    | some .flowMapping =>
      advance
      mapping (flowEntries true (depth + 1) fuel)
    | some .blockSequence =>
      advance
      sequence (blockItems (depth + 1) fuel)
    | some .blockMapping =>
      advance
      mapping (blockEntries (depth + 1) fuel)
    | _ => refuse "expected the node content"
termination_by structural fuel => fuel

/-- The items of a block sequence, up to its end. -/
def blockItems (depth : Nat) : Nat → Reading (List Node)
  | 0 => throw .nestedTooDeeply
  | fuel + 1 => do
    if ← accept isItem then
      let item ← if ← isNext endsItem then pure .absent else node true false depth fuel
      return item :: (← blockItems depth fuel)
    else if ← accept isBlockEnd then return []
    else refuse "expected <block end>"
termination_by structural fuel => fuel

/-- The items of a sequence that is not indented deeper than its key. -/
def looseItems (depth : Nat) : Nat → Reading (List Node)
  | 0 => throw .nestedTooDeeply
  | fuel + 1 => do
    if ← accept isItem then
      let isEmpty ← isNext fun t => isItem t || endsEntry t
      let item ← if isEmpty then pure .absent else node true false depth fuel
      return item :: (← looseItems depth fuel)
    else return []
termination_by structural fuel => fuel

/-- The entries of a block mapping, up to its end. -/
def blockEntries (depth : Nat) : Nat → Reading (List (Node × Node))
  | 0 => throw .nestedTooDeeply
  | fuel + 1 => do
    if ← accept isKey then
      let key ← if ← isNext endsEntry then pure .absent else node true true depth fuel
      let value ←
        if ← accept isValue then
          if ← isNext endsEntry then pure .absent else node true true depth fuel
        else pure .absent
      return (key, value) :: (← blockEntries depth fuel)
    else if ← accept isBlockEnd then return []
    else refuse "expected <block end>"
termination_by structural fuel => fuel

/-- The items of a flow sequence, up to its bracket.  An item with a colon is a mapping of one
entry. -/
def flowItems (isFirst : Bool) (depth : Nat) : Nat → Reading (List Node)
  | 0 => throw .nestedTooDeeply
  | fuel + 1 => do
    if ← accept isSequenceEnd then return []
    else
      if !isFirst then
        if !(← accept isComma) then refuse "expected ',' or ']'"
      if ← accept isKey then
        if deepest < depth then throw .nestedTooDeeply
        let entry ← flowEntry isSequenceEnd (depth + 1) fuel
        return .mapping .mapping [entry] :: (← flowItems false depth fuel)
      else if ← accept isSequenceEnd then return []
      else
        let item ← node false false depth fuel
        return item :: (← flowItems false depth fuel)
termination_by structural fuel => fuel

/-- The entries of a flow mapping, up to its bracket.  A key without a colon has no value. -/
def flowEntries (isFirst : Bool) (depth : Nat) : Nat → Reading (List (Node × Node))
  | 0 => throw .nestedTooDeeply
  | fuel + 1 => do
    if ← accept isMappingEnd then return []
    else
      if !isFirst then
        if !(← accept isComma) then refuse "expected ',' or a closing brace"
      if ← accept isKey then
        let entry ← flowEntry isMappingEnd depth fuel
        return entry :: (← flowEntries false depth fuel)
      else if ← accept isMappingEnd then return []
      else
        let key ← node false false depth fuel
        let _ ← peek
        return (key, .absent) :: (← flowEntries false depth fuel)
termination_by structural fuel => fuel

/-- One entry between brackets, behind the mark of its key. -/
def flowEntry (isEnd : Token → Bool) (depth : Nat) : Nat → Reading (Node × Node)
  | 0 => throw .nestedTooDeeply
  | fuel + 1 => do
    let hasNoKey ← isNext fun t => isValue t || isComma t || isEnd t
    let key ← if hasNoKey then pure .absent else node false false depth fuel
    let value ←
      if ← accept isValue then
        let hasNoValue ← isNext fun t => isComma t || isEnd t
        if hasNoValue then pure .absent else node false false depth fuel
      else pure .absent
    return (key, value)
termination_by structural fuel => fuel

end

/-! ### Documents -/

/-- What the directives of a document have said so far. -/
structure Preamble where
  hasVersion : Bool := false
  handles : List (String × String) := []

/-- Adds what a directive says.  Nothing may be said twice. -/
def Preamble.add (p : Preamble) : Directive → Except Fault Preamble
  | .version major =>
    if p.hasVersion then .error (malformed "found duplicate YAML directive")
    else if major != 1 then .error (malformed "found incompatible YAML document")
    else .ok { p with hasVersion := true }
  | .shorthand handle meaning =>
    if (p.handles.lookup handle).isSome then .error (malformed "duplicate tag handle")
    else .ok { p with handles := (handle, meaning) :: p.handles }
  | .unknown => .ok p

/-- What the handles of tags stand for, unless a directive says otherwise. -/
def standardHandles : List (String × String) := [("!", "!"), ("!!", Tag.standard)]

/-- The directives at the start of a row of tokens. -/
def leadingDirectives : List Token → List Directive
  | .directive directive :: rest => directive :: leadingDirectives rest
  | _ => []

/-- The directives in front of a document. -/
def preamble : Reading Unit := do
  let directives := leadingDirectives (← get).tokens
  let said ← (directives.foldlM Preamble.add {} : Except Fault Preamble)
  modify fun d => { d with
    tokens := d.tokens.drop directives.length
    handles := said.handles ++ standardHandles }

/-- The content of a document. -/
def body : Reading Node := do node true false 0 (3 * (← get).tokens.length + 3)

/-- The node of a document behind its mark, up to the end of the document or the start of another. -/
def explicitDocument : Reading Node := do
  preamble
  match ← peek with
  | some .documentStart =>
    advance
    match ← peek with
    | none | some (.directive _) | some .documentStart | some .documentEnd => return .absent
    | _ => body
  | _ => refuse "expected '<document start>'"

/-- Ends the reading of a document, behind which there may be nothing but marks of its end. -/
def close : Reading Unit := do
  modify fun d => { d with tokens := d.tokens.dropWhile isDocumentEnd }
  match ← peek with
  | none => return
  | some _ =>
    preamble
    let _ ← peek
    refuse "expected a single document in the stream"

/-- The node of a file, if there is one. -/
def file : Reading (Option Node) := do
  match ← peek with
  | none => return none
  | some (.directive _) | some .documentStart =>
    let node ← explicitDocument
    close
    return some node
  | some _ =>
    let node ← body
    close
    return some node

/-- The nodes with names that are complete, the first one first. -/
def completeAnchors (anchors : List (String × Anchored)) : List (String × Node) :=
  anchors.reverse.filterMap fun (name, anchored) =>
    match anchored with
    | .complete node => some (name, node)
    | .opened .. => none

/-- The document that tokens stand for. -/
def Document.ofTokens (tokens : List Token) : Except Fault Document := do
  let (root, draft) ← file.run ⟨tokens, standardHandles, []⟩
  return ⟨completeAnchors draft.anchors, root⟩

end Keysong.Yaml
