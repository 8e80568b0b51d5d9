import CrudSchema.Yaml.Fault
import CrudSchema.Yaml.Node

/-!
# Merged mappings

**Merging** (`flatten`). Under a merge key a mapping names another mapping, or a sequence of them,
whose entries it takes over. They go before its own entries, so these win; those of the last mapping
of a sequence go first, so the first mapping wins. What is taken over is itself merged before.

**Default keys.** The sign for a default value is a text where it is a key of a merged mapping.

**Ends.** A merge key is taken out of its mapping before it is followed. So the merge keys of a
document bound how deep merging goes, even where a mapping is merged into itself.
-/

namespace CrudSchema.Yaml

/-- A step that changes the nodes of a document. -/
abbrev Rework := StateT Nodes (Except SyntaxError)

namespace Nodes

def tagAt? (nodes : Nodes) (place : Place) : Option Tag := (nodes[place]?).map Node.tag

def contentAt? (nodes : Nodes) (place : Place) : Option Content := (nodes[place]?).map Node.content

/-- The entries at a place; there are none if no mapping is there. -/
def entriesAt (nodes : Nodes) (place : Place) : List (Place × Place) :=
  match nodes.contentAt? place with
  | some (.mapping entries) => entries
  | _ => []

def setEntriesAt (nodes : Nodes) (place : Place) (entries : List (Place × Place)) : Nodes :=
  nodes.modify place fun n => { n with content := .mapping entries }

def isMerge (nodes : Nodes) (entry : Place × Place) : Bool := nodes.tagAt? entry.1 = some .merge

/-- The merge keys of all mappings. -/
def mergeCount (nodes : Nodes) : Nat :=
  nodes.foldl (fun count n => match n.content with
    | .mapping entries => count + entries.countP nodes.isMerge
    | _ => count) 0

end Nodes

namespace Rework

def fail {α : Type} (e : SyntaxError) : Rework α := throw e

/-- Make a default key a text. -/
def nameDefault (entry : Place × Place) : Rework Unit :=
  modify fun nodes => nodes.modify entry.1 fun n =>
    if n.tag = .default then { n with tag := .text } else n

/-- Take the first merge key out of a mapping, and tell what it names. -/
def takeMerge (place : Place) : Rework (Option Place) := do
  let nodes ← get
  let entries := nodes.entriesAt place
  match entries.find? nodes.isMerge with
  | none => return none
  | some entry =>
    set (nodes.setEntriesAt place (entries.eraseP nodes.isMerge))
    return some entry.2

/-- Put entries before those of a mapping, whose default keys become texts. -/
def finish (place : Place) (found : List (Place × Place)) : Rework Unit := do
  ((← get).entriesAt place).forM nameDefault
  modify fun nodes => nodes.setEntriesAt place (found ++ nodes.entriesAt place)

variable (flatten : Place → Rework Unit)

/-- The entries of a mapping, merged. -/
def entriesOf (place : Place) : Rework (List (Place × Place)) := do
  flatten place
  return (← get).entriesAt place

/-- The entries of mappings, those of the last mapping first. -/
def entriesOfAll : List Place → Rework (List (Place × Place))
  | [] => return []
  | place :: rest => do
    match (← get).contentAt? place with
    | some (.mapping _) =>
      let entries ← entriesOf flatten place
      return (← entriesOfAll rest) ++ entries
    | _ => fail .mergeSource

/-- The entries of what a merge key names. -/
def source (place : Place) : Rework (List (Place × Place)) := do
  match (← get).contentAt? place with
  | some (.mapping _) => entriesOf flatten place
  | some (.sequence items) => entriesOfAll flatten items
  | _ => fail .mergeSource

end Rework

open Rework

/-- The entries that a mapping takes over, with so many merge keys left in the document. -/
def absorb : (merges : Nat) → Place → Rework (List (Place × Place))
  | 0, _ => return []
  | merges + 1, place => do
    match ← takeMerge place with
    | none => return []
    | some named =>
      let found ← source (fun p => do finish p (← absorb merges p)) named
      return found ++ (← absorb merges place)

/-- Replace the merge keys of a mapping by the entries they stand for. -/
def flatten (place : Place) : Rework Unit := do
  let merges := (← get).mergeCount
  finish place (← absorb merges place)

end CrudSchema.Yaml
