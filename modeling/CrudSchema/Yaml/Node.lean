import CrudSchema.Yaml.Layout
import CrudSchema.Yaml.Tag

/-!
# From tokens to nodes

**Nodes** (`Node`). Scalars, sequences and mappings, each with its type. The nodes of a document are
kept in one array, and a node refers to others by their places in it. So an alias is the node that
bears its name, and a node may be inside itself.

**Grammar** (`node`). A node is an alias, or content behind a name and a type, both of which may be
missing; and where there is a name or a type, so may the content be. In a block, items and entries
go on until the block ends; a sequence that is the value of an entry may stand at the column of its
key, and then ends with its last item. In brackets they go on until the bracket closes, and a key
may stand alone there.

**Depth.** A node inside more than `mostLevels` others is refused.
-/

namespace CrudSchema.Yaml

/-- A place among the nodes of a document. -/
abbrev Place := Nat

inductive Content where
  | scalar (text : String)
  | sequence (items : List Place)
  | mapping (entries : List (Place × Place))
  deriving DecidableEq, Repr

structure Node where
  tag : Tag
  content : Content
  deriving DecidableEq, Repr

abbrev Nodes := Array Node

/-- The tokens left, the nodes so far, the places that have names, and the handles of types. -/
structure Composer where
  tokens : List Token
  nodes : Nodes := #[]
  anchors : List (String × Place) := []
  handles : List (String × String) := []

/-- A step over tokens. -/
abbrev Compose := StateT Composer (Except Fault)

namespace Compose

def fail {α : Type} (e : SyntaxError) : Compose α := throw (.malformed e)

/-- The token in front. -/
def front : Compose Token := do return (← get).tokens.headD .streamEnd

def advance : Compose Unit := modify fun s => { s with tokens := s.tokens.drop 1 }

/-- Go past a token if it is in front. -/
def accept (t : Token) : Compose Bool := do
  if (← front) = t then advance; pure true else pure false

/-- The number of tokens left, and one. -/
def limit : Compose Nat := do return (← get).tokens.length + 1

/-! ## Names and types -/

/-- A name may be given once. -/
def checkAnchor : Option String → Compose Unit
  | none => pure ()
  | some name => do
    if ((← get).anchors.lookup name).isSome then fail (.repeatedAnchor name)

/-- Add a node, under a name perhaps. -/
def add (anchor : Option String) (n : Node) : Compose Place := do
  let place := (← get).nodes.size
  modify fun s => { s with nodes := s.nodes.push n }
  match anchor with
  | none => pure ()
  | some name => modify fun s => { s with anchors := (name, place) :: s.anchors }
  return place

/-- The node of a place that was left empty. -/
def empty : Compose Place := add none ⟨.null, .scalar ""⟩

def fill (place : Place) (content : Content) : Compose Unit :=
  modify fun s => { s with nodes := s.nodes.modify place fun n => { n with content } }

/-- Add a sequence, with its items read when it already has its name. -/
def addSequence (anchor : Option String) (tag : Tag) (items : Compose (List Place)) :
    Compose Place := do
  let place ← add anchor ⟨tag, .sequence []⟩
  fill place (.sequence (← items))
  return place

/-- Add a mapping, with its entries read when it already has its name. -/
def addMapping (anchor : Option String) (tag : Tag) (entries : Compose (List (Place × Place))) :
    Compose Place := do
  let place ← add anchor ⟨tag, .mapping []⟩
  fill place (.mapping (← entries))
  return place

/-- The node of an alias. -/
def aliased (name : String) : Compose Place := do
  match (← get).anchors.lookup name with
  | none => fail (.undefinedAlias name)
  | some place => pure place

/-- The name of a type, with its handle written out. -/
def tagName (handle : Option String) (suffix : String) : Compose String := do
  match handle with
  | none => pure suffix
  | some handle =>
    match (← get).handles.lookup handle with
    | some stem => pure (stem ++ suffix)
    | none => fail (.undefinedHandle handle)

def acceptAnchor : Compose (Option String) := do
  match ← front with
  | .anchor name => do advance; pure (some name)
  | _ => pure none

/-- The type in front, if there is one, as handle and suffix. -/
def acceptTag : Compose (Option (Option String × String)) := do
  match ← front with
  | .tag handle suffix => do advance; pure (some (handle, suffix))
  | _ => pure none

/-- The name and the type in front, in either order. -/
def properties : Compose (Option String × Option String) := do
  let first ← acceptAnchor
  let tag ← acceptTag
  let anchor ← match first, tag with
    | none, some _ => acceptAnchor
    | _, _ => pure first
  match tag with
  | none => pure (anchor, none)
  | some (handle, suffix) => do pure (anchor, some (← tagName handle suffix))

/-- A collection's type. The one called `!` leaves it to the content. -/
def collectionTag (tag : Option String) (usual : Tag) : Tag :=
  match tag with
  | some name => if name = "!" then usual else .ofName name
  | none => usual

/-- A scalar's type: the written one, or else the one its form gives it. A quoted one is a text. -/
def scalarTag (tag : Option String) (plain : Bool) (text : String) : Tag :=
  match tag with
  | some name => if name = "!" then .ofPlain text else .ofName name
  | none => if plain then .ofPlain text else .text

/-! ## Collections -/

variable (inner : (block indentless : Bool) → Compose Place)

/-- A node, or nothing if one of these tokens is in front. -/
def nodeUnless (stops : List Token) (block indentless : Bool) : Compose Place := do
  if stops.contains (← front) then empty else inner block indentless

/-- Items of a block up to its end. -/
def blockItems : (limit : Nat) → Compose (List Place)
  | 0 => fail .endExpected
  | limit + 1 => do
    if ← accept .item then
      let n ← nodeUnless inner [.item, .blockEnd] true false
      return n :: (← blockItems limit)
    else if ← accept .blockEnd then pure []
    else fail .endExpected

/-- Items that stand at the column of the key before them. -/
def indentlessItems : (limit : Nat) → Compose (List Place)
  | 0 => fail .endExpected
  | limit + 1 => do
    if ← accept .item then
      let n ← nodeUnless inner [.item, .key, .value, .blockEnd] true false
      return n :: (← indentlessItems limit)
    else pure []

/-- The value behind a key of a block. -/
def blockValue : Compose Place := do
  if ← accept .value then nodeUnless inner [.key, .value, .blockEnd] true true else empty

/-- Entries of a block up to its end. Each begins with its key. -/
def blockEntries : (limit : Nat) → Compose (List (Place × Place))
  | 0 => fail .endExpected
  | limit + 1 => do
    if ← accept .key then
      let k ← nodeUnless inner [.key, .value, .blockEnd] true true
      let v ← blockValue inner
      return (k, v) :: (← blockEntries limit)
    else if ← accept .blockEnd then pure []
    else fail .endExpected

/-- The key and the value of an entry in brackets that close with `close`. -/
def flowEntry (close : Token) : Compose (Place × Place) := do
  let k ← nodeUnless inner [.value, .separator, close] false false
  if ← accept .value then
    let v ← nodeUnless inner [.separator, close] false false
    return (k, v)
  else return (k, ← empty)

/-- Go past the separator before all items but the first. -/
def separate (first : Bool) : Compose Unit := do
  if !first then
    if !(← accept .separator) then fail .separatorExpected

/-- Items up to the closing bracket. An entry among them is a mapping of its own. -/
def flowItems (first : Bool) : (limit : Nat) → Compose (List Place)
  | 0 => fail .separatorExpected
  | limit + 1 => do
    if ← accept .flowSequenceEnd then return []
    separate first
    if ← accept .flowSequenceEnd then return []
    let n ←
      if ← accept .key then
        addMapping none .mapping do return [← flowEntry inner .flowSequenceEnd]
      else inner false false
    return n :: (← flowItems false limit)

/-- Entries up to the closing brace. -/
def flowEntries (first : Bool) : (limit : Nat) → Compose (List (Place × Place))
  | 0 => fail .separatorExpected
  | limit + 1 => do
    if ← accept .flowMappingEnd then return []
    separate first
    if ← accept .flowMappingEnd then return []
    let e ←
      if ← accept .key then flowEntry inner .flowMappingEnd
      else do pure (← inner false false, ← empty)
    return e :: (← flowEntries false limit)

/-- The content in front; without any there is an empty scalar, if the node has properties. -/
def content (block indentless : Bool) (anchor tag : Option String) : Compose Place := do
  let limit ← limit
  match ← front with
  | .item =>
    if indentless then
      addSequence anchor (collectionTag tag .sequence) (indentlessItems inner limit)
    else missing
  | .scalar text plain => do
    advance
    add anchor ⟨scalarTag tag plain text, .scalar text⟩
  | .flowSequenceStart => do
    advance
    addSequence anchor (collectionTag tag .sequence) (flowItems inner true limit)
  | .flowMappingStart => do
    advance
    addMapping anchor (collectionTag tag .mapping) (flowEntries inner true limit)
  | .sequenceStart =>
    if block then do
      advance
      addSequence anchor (collectionTag tag .sequence) (blockItems inner limit)
    else missing
  | .mappingStart =>
    if block then do
      advance
      addMapping anchor (collectionTag tag .mapping) (blockEntries inner limit)
    else missing
  | _ => missing
where
  missing : Compose Place := do
    if anchor.isNone && tag.isNone then fail .contentExpected
    else add anchor ⟨scalarTag tag true "", .scalar ""⟩

end Compose

open Compose

/-! ## Nodes -/

/-- How deep nodes nest. -/
def mostLevels : Nat := 490

/-- The node in front, with so many levels left. -/
def node : (levels : Nat) → (block indentless : Bool) → Compose Place
  | 0, _, _ => throw (.conversion .tooDeep)
  | levels + 1, block, indentless => do
    match ← front with
    | .alias name => do
      advance
      aliased name
    | _ => do
      let (anchor, tag) ← properties
      checkAnchor anchor
      content (node levels) block indentless anchor tag

/-! ## Documents -/

/-- Handles that need no directive. -/
def usualHandles : List (String × String) := [("!", "!"), ("!!", Tag.stem)]

/-- The directives in front: the handles that they define, after one version at most. -/
def directives (versioned : Bool) (handles : List (String × String)) :
    (limit : Nat) → Compose (List (String × String))
  | 0 => pure handles
  | limit + 1 => do
    match ← front with
    | .directive (.version major _) =>
      if versioned || major ≠ 1 then fail .directive
      else do
        advance
        directives true handles limit
    | .directive (.handle name stem) =>
      if (handles.lookup name).isSome then fail .directive
      else do
        advance
        directives versioned ((name, stem) :: handles) limit
    | .directive .other => do
      advance
      directives versioned handles limit
    | _ => pure handles

/-- Go past marks that end documents. -/
def skipEnds : (limit : Nat) → Compose Unit
  | 0 => pure ()
  | limit + 1 => do
    if ← accept .documentEnd then skipEnds limit

/-- The content of a document behind its mark. -/
def documentContent : Compose Place := do
  match ← front with
  | .directive _ | .documentStart | .documentEnd | .streamEnd => empty
  | _ => node mostLevels true false

/-- A document with its directives and its mark. -/
def markedDocument : Compose Place := do
  let handles ← directives false [] (← limit)
  modify fun s => { s with handles := handles ++ usualHandles }
  if !(← accept .documentStart) then fail .documentExpected
  documentContent

/-- The one document of a file, if there is any. Only the first may do without its mark. -/
def document? : Compose (Option Place) := do
  let first ← front
  let n ← match first with
    | .directive _ | .documentStart => some <$> markedDocument
    | .streamEnd => pure none
    | _ => do
      modify fun s => { s with handles := usualHandles }
      some <$> node mostLevels true false
  skipEnds (← limit)
  if (← front) = .streamEnd then pure n else fail .severalDocuments

/-- The nodes of a text, and the place of the outermost one, if there is any. -/
def compose (text : String) : Except Fault (Option Place × Nodes) := do
  let tokens ← tokens text
  let (place, composer) ← document?.run { tokens }
  return (place, composer.nodes)

end CrudSchema.Yaml
