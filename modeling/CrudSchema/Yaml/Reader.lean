import CrudSchema.Yaml.Conversion
import CrudSchema.Yaml.Merge

/-!
# The data of a settings file

**Nodes and data.** A scalar is a value. A sequence or a mapping is a compound, at the same place
among the compounds as among the nodes; pairs are compounds behind those. An alias is the same
compound once more.

**Order** (`workOff`). The parts of a compound are read when its turn comes: what is met first is
read first, and the outer compound before those inside it. Of several faults the one read first
counts.

**Keys** (`keyAt`). A key is a scalar. Two keys that are no numbers are the same if they are the
same node, or if both are the word for it.

**Reading** (`read`). A text without any node is null.
-/

namespace CrudSchema.Yaml

/-- Nodes and compounds, the places to be read in the order they were met, and which they are. -/
structure Builder where
  nodes : Nodes
  compounds : Array Compound
  met : Array Place := #[]
  isMet : Array Bool

/-- A step of reading data. -/
abbrev Build := StateT Builder (Except Fault)

namespace Build

def fail {α : Type} (e : SyntaxError) : Build α := throw (.malformed e)

def contentAt (place : Place) : Build Content := do
  return ((← get).nodes.contentAt? place).getD (.scalar "")

def tagAt (place : Place) : Build Tag := do return ((← get).nodes.tagAt? place).getD .null

/-- Change nodes. -/
def rework (step : Rework Unit) : Build Unit := do
  match step.run (← get).nodes with
  | .ok ((), nodes) => modify fun b => { b with nodes }
  | .error e => fail e

/-! ## Scalars -/

/-- The text at a place. That of a mapping is its default value's; it may be at no end of them. -/
def textAt : (levels : Nat) → Place → Build String
  | 0, _ => throw (.conversion .tooDeep)
  | levels + 1, place => do
    match ← contentAt place with
    | .scalar text => return text
    | .sequence _ => fail .scalarExpected
    | .mapping entries =>
      let nodes := (← get).nodes
      match entries.find? fun e => nodes.tagAt? e.1 = some .default with
      | some e => textAt levels e.2
      | none => fail .scalarExpected

def scalarText (place : Place) : Build String := do textAt ((← get).nodes.size + 1) place

/-- The scalar of a type at a place. A date must be written there itself. -/
def scalarAt (tag : Tag) (place : Place) : Build Value := do
  let text ← scalarText place
  match tag, ← contentAt place with
  | .timestamp, .mapping _ => throw (.conversion .stampOfMapping)
  | tag, _ =>
    match scalarValue? tag text with
    | some (.ok v) => return v
    | some (.error e) => throw e
    | none => fail .scalarExpected

/-! ## Compounds -/

/-- The compound that a node of a type begins as. -/
def emptyCompound? : Tag → Option Compound
  | .sequence | .pairs => some (.list [])
  | .mapping => some (.map [])
  | .set => some (.set [])
  | _ => none

/-- Note that the parts at a place have to be read. -/
def meet (place : Place) (c : Compound) : Build Unit := do
  let b ← get
  if !(b.isMet[place]?.getD true) then
    set { b with
      compounds := b.compounds.setIfInBounds place c
      met := b.met.push place
      isMet := b.isMet.setIfInBounds place true }

/-- The name of a type that no value has. -/
def valuelessName? : Tag → Option String
  | .merge => some (Tag.stem ++ "merge")
  | .default => some (Tag.stem ++ "value")
  | .other name => some name
  | _ => none

/-- The value at a place; if it is a compound, its parts are still to be read. -/
def valueAt (place : Place) : Build Value := do
  let tag ← tagAt place
  match emptyCompound? tag, valuelessName? tag with
  | some c, _ => do meet place c; return .compound place
  | none, some name => fail (.unknownTag name)
  | none, none => scalarAt tag place

/-- A key, and which of the values that are no numbers it is. -/
structure Key where
  value : Value
  identity : Nat
  deriving DecidableEq

def Key.same (a b : Key) : Bool := a.value.sameKey b.value || a = b

def keyAt (place : Place) : Build Key := do
  let value ← valueAt place
  match value with
  | .compound _ => fail .keyExpected
  | .float .notANumber => do
    return ⟨value, if isNanWord (← scalarText place) then 0 else place + 1⟩
  | value => return ⟨value, 0⟩

/-- Replace the value of a key where it stands, or append the entry. -/
def setEntry (key : Key) (value : Value) : List (Key × Value) → List (Key × Value)
  | [] => [(key, value)]
  | (k, v) :: rest =>
    if k.same key then (k, value) :: rest else (k, v) :: setEntry key value rest

/-- The entries of the mapping at a place, merged, with distinct keys. -/
def entriesAt (place : Place) : Build (List (Key × Value)) := do
  match ← contentAt place with
  | .mapping _ =>
    rework (flatten place)
    ((← get).nodes.entriesAt place).foldlM (fun found (k, v) => do
      let key ← keyAt k
      let value ← valueAt v
      return setEntry key value found) []
  | _ => fail .mappingExpected

def itemsAt (place : Place) : Build (List Place) := do
  match ← contentAt place with
  | .sequence items => return items
  | _ => fail .sequenceExpected

/-- The pair that a mapping of one entry is. -/
def pairAt (place : Place) : Build Value := do
  match ← contentAt place with
  | .mapping [(k, v)] =>
    let first ← valueAt k
    let second ← valueAt v
    let pair := (← get).compounds.size
    modify fun b => { b with compounds := b.compounds.push (.pair first second) }
    return .compound pair
  | _ => fail .pairExpected

/-- The compound of a type at a place. -/
def compoundAt (tag : Tag) (place : Place) : Build Compound := do
  match tag with
  | .mapping => return .map ((← entriesAt place).map fun (k, v) => (k.value, v))
  | .set => return .set ((← entriesAt place).map fun (k, _) => k.value)
  | .pairs => return .list (← (← itemsAt place).mapM pairAt)
  | _ => return .list (← (← itemsAt place).mapM valueAt)

/-- Read the parts of what was met, from some turn on. Every place has one turn. -/
def workOff (turn : Nat) : (limit : Nat) → Build Unit
  | 0 => return ()
  | limit + 1 => do
    match (← get).met[turn]? with
    | none => return ()
    | some place =>
      let c ← compoundAt (← tagAt place) place
      modify fun b => { b with compounds := b.compounds.setIfInBounds place c }
      workOff (turn + 1) limit

end Build

open Build

/-- The data of a document. -/
def build (root : Place) (nodes : Nodes) : Except Fault Data := do
  let start : Builder :=
    { nodes, compounds := .replicate nodes.size (.list []),
      isMet := .replicate nodes.size false }
  let step : Build Value := do
    let v ← valueAt root
    workOff 0 nodes.size
    return v
  let (v, b) ← step.run start
  return ⟨v, b.compounds⟩

/-- The data of a text. -/
def read (text : String) : Except Fault Data := do
  match ← compose text with
  | (none, _) => return ⟨.null, #[]⟩
  | (some root, nodes) => build root nodes

end CrudSchema.Yaml
