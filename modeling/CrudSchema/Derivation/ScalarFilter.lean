import CrudSchema.Draft
import CrudSchema.FilterShape

/-!
# The filter inputs of a scalar kind

**The family** (`family`). The inputs that filter one kind, as its shape prescribes: a range input
for each pair of operators, the equality input with one field per variant, and the filter input
with the equality and the substring fields.

    input IntFilterInput { equality: IntEqualityInput }
    input IntEqualityInput { eq: Int  ne: Int  …  leGe: IntLeGeInput  … }
    input IntLeGeInput { le: Int!  ge: Int! }

**Building it** (`Derive.scalarFilter`). A draft gets the family of a kind once, when a field first
needs it. A name of the family that is taken stops the build; what was registered before stays,
and the kind does not count as built.
-/

namespace CrudSchema

namespace FilterShape

/-- The input of one range: both operators are required. -/
def rangeInput (s : FilterShape) (v : Variant) : InputObject :=
  v.operators.foldl (fun i op => i.addField op (.scalar s.kind) false)
    { name := Naming.scalarRange s.kind v.operators }

/-- The type of a variant's field: the scalar, or the range input of a pair. -/
def variantType (s : FilterShape) (v : Variant) : TypeRef :=
  if v.isRange then .named (s.rangeInput v).name else .scalar s.kind

def equalityInput (s : FilterShape) : InputObject :=
  s.variants.foldl (fun i v => i.addField v.name (s.variantType v))
    { name := Naming.scalarEquality s.kind
      description := some ("Exactly one of " ++ ", ".intercalate s.variantNames ++ " may be set.") }

def filterInput (s : FilterShape) : InputObject :=
  s.substring.foldl (fun i predicate => i.addField predicate (.scalar s.kind))
    (InputObject.addField { name := Naming.scalarFilter s.kind } "equality"
      (.named s.equalityInput.name))

/-- The inputs of a kind, in the order in which they are registered. -/
def family (s : FilterShape) : List InputObject :=
  (s.variants.filter Variant.isRange).map s.rangeInput ++ [s.equalityInput, s.filterInput]

end FilterShape

namespace Derive

def registerInputs : List InputObject → Derive Unit
  | [] => pure ()
  | i :: rest => do registerInput i; registerInputs rest

/-- Make sure that the family of a kind is there, and tell the name of its filter input. -/
def scalarFilter (kind : ScalarKind) : Derive String := do
  let shape := FilterShape.of kind
  unless (← get).kinds.contains kind do
    registerInputs shape.family
    tell ⟨.debug, .filters, "Built " ++ shape.filterInput.name ++ " with " ++
      toString shape.variants.length ++ " equality variants"⟩
    modify fun d => { d with kinds := d.kinds ++ [kind] }
  pure shape.filterInput.name

/-- Make sure that the families of some kinds are there. -/
def scalarFilters : List ScalarKind → Derive Unit
  | [] => pure ()
  | kind :: rest => do let _ ← scalarFilter kind; scalarFilters rest

end Derive

end CrudSchema
