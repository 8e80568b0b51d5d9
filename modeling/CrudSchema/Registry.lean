import CrudSchema.Declaration
import CrudSchema.Journal
import CrudSchema.SynthesisError

/-!
# Merging documents

**The registry** (`Registry`). The declarations taken in so far, each with the source it first
came from, in order of first declaration.

**One declaration** (`judge`). Its name must not be reserved, its fields must have distinct
names, and a declaration already there under its name must have the same shape; the first of
these that fails is the fault. A declaration that passes is either new or a repetition, and a
repetition changes nothing: neither the declaration nor the source nor the place in the order.

**Many** (`registerAll`). One after the other, up to the first fault; what came before the fault
stays.
-/

namespace CrudSchema

/-- Names no declaration may have: the root types and the scalars. -/
def reservedNames : List String :=
  ["Query", "Mutation", "Subscription"] ++ ScalarKind.all.map ScalarKind.name

/-- The first name that occurs a second time, after some names already seen. -/
def repeatedName? (seen : List String) : List String → Option String
  | [] => none
  | name :: rest => if name ∈ seen then some name else repeatedName? (name :: seen) rest

/-- A declaration with the source it came from. -/
structure Sourced where
  declaration : Declaration
  source : String
  deriving DecidableEq, Repr

structure Registry where
  types : NameMap Sourced

namespace Registry

def empty : Registry := ⟨.empty⟩

def contains (r : Registry) (name : String) : Bool := r.types.contains name

def sourceOf? (r : Registry) (name : String) : Option String :=
  (r.types.get? name).map Sourced.source

/-- The merged map. -/
def build (r : Registry) : TypeMap := r.types.mapValues Sourced.declaration

/-! ## One declaration -/

/-- Whether an acceptable declaration is new to a registry. -/
inductive Standing where
  | new
  | repeated
  deriving DecidableEq, Repr

def judge (r : Registry) (s : Sourced) : Except SynthesisError Standing :=
  if s.declaration.name ∈ reservedNames then .error (.reservedName s.declaration.name)
  else match repeatedName? [] s.declaration.fieldNames with
    | some field => .error (.duplicateField s.declaration.name field (some s.source))
    | none =>
      match r.types.get? s.declaration.name with
      | none => .ok .new
      | some present =>
        if present.declaration.shape = s.declaration.shape then .ok .repeated
        else .error (.duplicateType s.declaration.name [present.source, s.source] none none)

def add (r : Registry) (s : Sourced) : Registry := ⟨r.types.set s.declaration.name s⟩

def repetitionRecord (s : Sourced) : Record where
  level := .debug
  topic := .registry
  message := "Skipping identical redeclaration of " ++ s.declaration.name ++ " from " ++ s.source

/-! ## Many declarations -/

/-- A registry after some declarations, and the fault that stopped it, if any. -/
structure Progress where
  registry : Registry
  journal : Journal
  fault : Option SynthesisError

def registerAll (r : Registry) : List Sourced → Progress
  | [] => ⟨r, [], none⟩
  | s :: rest =>
    match r.judge s with
    | .error e => ⟨r, [], some e⟩
    | .ok .new => registerAll (r.add s) rest
    | .ok .repeated =>
      let later := registerAll r rest
      { later with journal := repetitionRecord s :: later.journal }

end Registry

/-! ## Documents -/

/-- The declarations of a document, each with its source. -/
def Document.sourced (d : Document) : List Sourced := d.types.map fun t => ⟨t, d.source⟩

/-- The merged map of documents. -/
def merge (documents : List Document) : Logged SynthesisError TypeMap :=
  let progress := Registry.empty.registerAll (documents.flatMap Document.sourced)
  match progress.fault with
  | some e => ⟨progress.journal, .error e⟩
  | none =>
    let types := progress.registry.build
    ⟨progress.journal ++ [mergedRecord types], .ok types⟩
where
  mergedRecord (types : TypeMap) : Record :=
    ⟨.info, .registry, "Merged " ++ toString documents.length ++ " document(s) into " ++
      toString types.size ++ " type(s)"⟩

end CrudSchema
