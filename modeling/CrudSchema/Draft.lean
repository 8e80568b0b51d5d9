import CrudSchema.Api
import CrudSchema.Journal
import CrudSchema.SynthesisError

/-!
# An API under construction

**The draft** (`Draft`). Everything derived so far in one run: inputs, enums, operations, the
scalar kinds whose inputs are complete, and the records made. It also knows the declared names,
which no derived type may take.

**Steps** (`Derive`). A step may fail, and leaves the draft behind either way: what it registered
before it failed stays. Steps only ever append.

**Registering** (`registerInput`, `registerEnum`). A derived type takes a name that no declared
and no derived type has (`isTaken`).

**Operations** (`addQuery`, `addMutation`). Each root is a namespace of its own, and a name in it
is given once.
-/

namespace CrudSchema

structure Draft where
  declared : List String
  inputs : NameMap InputObject := .empty
  enums : NameMap EnumType := .empty
  kinds : List ScalarKind := []
  query : NameMap Operation := .empty
  mutation : NameMap Operation := .empty
  derived : NameMap DerivedTypes := .empty
  journal : Journal := []

/-- A step on a draft. -/
abbrev Derive := ExceptT SynthesisError (StateM Draft)

namespace Draft

/-- The draft a run begins with. -/
def start (declared : List String) : Draft := { declared }

/-- Take a step. -/
def take {α : Type} (d : Draft) (step : Derive α) : Except SynthesisError α × Draft :=
  (ExceptT.run step).run d

/-- The name belongs to a declared or a derived type. -/
def isTaken (d : Draft) (name : String) : Bool :=
  d.declared.contains name || d.inputs.contains name || d.enums.contains name

/-- The API drafted for some objects. -/
def api (d : Draft) (objects : TypeMap) : Api where
  objects
  inputs := d.inputs
  enums := d.enums
  query := d.query
  mutation := d.mutation
  derived := d.derived

end Draft

namespace Derive

def tell (r : Record) : Derive Unit := modify fun d => { d with journal := d.journal ++ [r] }

/-- Fail unless a name is free. -/
def checkFree (name : String) : Derive Unit := do
  if (← get).isTaken name then throw (.nameTaken name)

def registerInput (i : InputObject) : Derive Unit := do
  checkFree i.name
  modify fun d => { d with inputs := d.inputs.set i.name i }
  tell ⟨.debug, .draft,
    "Registered input " ++ i.name ++ " (" ++ toString i.fields.size ++ " fields)"⟩

def registerEnum (e : EnumType) : Derive Unit := do
  checkFree e.name
  modify fun d => { d with enums := d.enums.set e.name e }
  tell ⟨.debug, .draft, "Registered enum " ++ e.name⟩

/-- Fail if an operation's name is given among the operations of its root. -/
def checkOperation (given : NameMap Operation) (o : Operation) : Derive Unit :=
  match given.get? o.name with
  | some present => throw (.duplicateOperation o.name present.typeName o.typeName)
  | none => pure ()

def addQuery (o : Operation) : Derive Unit := do
  checkOperation (← get).query o
  modify fun d => { d with query := d.query.set o.name o }

def addMutation (o : Operation) : Derive Unit := do
  checkOperation (← get).mutation o
  modify fun d => { d with mutation := d.mutation.set o.name o }

end Derive

end CrudSchema
