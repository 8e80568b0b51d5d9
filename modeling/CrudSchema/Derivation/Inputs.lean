import CrudSchema.Classification
import CrudSchema.Derivation.ScalarFilter

/-!
# The four inputs of a type

**Filter.** One optional field per field that can be filtered, of the filter input of its kind.
With logical filters, also the lists `and` and `or` of the input itself; a field that can be
filtered must not bear one of these two names.

**Sort.** One optional direction per field but the identifier.

**Create.** Every field but the identifier, with its declared mark.

**Update.** The identifier, required, and every other field, optional.

In the last two a reference becomes the required `ID` of what it refers to, at the place where it
stands in its lists (`FieldClass.inputType`).
-/

namespace CrudSchema

/-- How a value of a class is given as input: a type and its mark. -/
def FieldClass.inputType : FieldClass → TypeRef × Bool
  | .identifier => (.scalar .id, false)
  | .scalar kind nullable => (.scalar kind, nullable)
  | .reference .. => (.scalar .id, false)
  | .list item nullable => (.list item.inputType.1 item.inputType.2, nullable)

namespace ClassifiedType

/-! ## The inputs -/

/-- The kinds of the fields that can be filtered, in field order. -/
def filterKinds (t : ClassifiedType) : List ScalarKind :=
  t.fields.filterMap fun (_, c) => c.kind?

/-- The filter input without the combinators. -/
def plainFilterInput (t : ClassifiedType) : InputObject :=
  t.fields.foldl
    (fun i (f, c) =>
      match FilterShape.ofClass? c with
      | some shape => i.addField f.name (.named shape.filterInput.name)
      | none => i)
    { name := Naming.filterInput t.name }

/-- The filter input with the lists `and` and `or` of itself. -/
def logicalFilterInput (t : ClassifiedType) : InputObject :=
  let combined := TypeRef.requiredListOf (Naming.filterInput t.name)
  (t.plainFilterInput.addField "and" combined true (some "All filters must match.")).addField
    "or" combined true (some "At least one filter must match.")

/-- The combinator whose name a filterable field has, if there is one. -/
def clash? (t : ClassifiedType) : Option String :=
  ["and", "or"].find? t.plainFilterInput.fields.contains

def sortInput (t : ClassifiedType) : InputObject :=
  t.nonIdentifierFields.foldl (fun i (f, _) => i.addField f.name (.named Naming.sortDirection))
    { name := Naming.sortInput t.name }

def createInput (t : ClassifiedType) : InputObject :=
  t.nonIdentifierFields.foldl (fun i (f, c) => i.addField f.name c.inputType.1 c.inputType.2)
    { name := Naming.createInput t.name }

def updateInput (t : ClassifiedType) : InputObject :=
  t.nonIdentifierFields.foldl (fun i (f, c) => i.addField f.name c.inputType.1)
    (InputObject.addField { name := Naming.updateInput t.name } t.identifier (.scalar .id) false)

end ClassifiedType

namespace Derive

/-! ## Deriving them -/

/-- The enum of sort directions. -/
def sortDirections : EnumType := { name := Naming.sortDirection, values := ["asc", "desc"] }

/-- Make sure that the enum of sort directions is there. -/
def sortDirectionEnum : Derive EnumType := do
  match (← get).enums.get? Naming.sortDirection with
  | some e => pure e
  | none => do registerEnum sortDirections; pure sortDirections

/-- Register the filter input of a type, and before it the families that its fields need. -/
def filterInput (t : ClassifiedType) (logical : Bool) : Derive InputObject := do
  scalarFilters t.filterKinds
  if logical then
    match t.clash? with
    | some combinator => throw (.combinatorClash t.name combinator)
    | none => pure ()
  let input := if logical then t.logicalFilterInput else t.plainFilterInput
  registerInput input
  pure input

/-- Register the sort input of a type, and before it the enum of sort directions. -/
def sortInput (t : ClassifiedType) : Derive InputObject := do
  let _ ← sortDirectionEnum
  registerInput t.sortInput
  pure t.sortInput

end Derive

end CrudSchema
