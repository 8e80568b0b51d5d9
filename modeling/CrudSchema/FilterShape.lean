import CrudSchema.Classification
import CrudSchema.Naming

/-!
# How a scalar can be compared

**Variants** (`Variant`). One operator, or a pair that bounds a range from both sides. The
variants of a kind exclude each other.

**Shapes** (`FilterShape.of`). `ID` and `Boolean` know equality only; the other kinds also know
order, and ranges closed or open at either end; `String` knows substrings besides.
-/

namespace CrudSchema

structure Variant where
  operators : List String
  deriving DecidableEq, Repr

namespace Variant

def name (v : Variant) : String := Naming.joinOperators v.operators

def isRange (v : Variant) : Bool := 1 < v.operators.length

end Variant

structure FilterShape where
  kind : ScalarKind
  variants : List Variant
  substring : List String := []
  deriving DecidableEq, Repr

namespace FilterShape

def variantNames (s : FilterShape) : List String := s.variants.map Variant.name

def equalityVariants : List Variant := [⟨["eq"]⟩, ⟨["ne"]⟩]

def orderVariants : List Variant := [⟨["le"]⟩, ⟨["lt"]⟩, ⟨["ge"]⟩, ⟨["gt"]⟩]

def rangeVariants : List Variant :=
  [⟨["le", "ge"]⟩, ⟨["le", "gt"]⟩, ⟨["lt", "ge"]⟩, ⟨["lt", "gt"]⟩]

def orderedVariants : List Variant := equalityVariants ++ orderVariants ++ rangeVariants

/-- The shape of a scalar kind. -/
def of : ScalarKind → FilterShape
  | .id => ⟨.id, equalityVariants, []⟩
  | .boolean => ⟨.boolean, equalityVariants, []⟩
  | .int => ⟨.int, orderedVariants, []⟩
  | .float => ⟨.float, orderedVariants, []⟩
  | .string => ⟨.string, orderedVariants, ["contains", "notContains", "startsWith", "endsWith"]⟩

/-- The shape of a field; references and lists cannot be filtered. -/
def ofClass? (c : FieldClass) : Option FilterShape := c.kind?.map of

end FilterShape

end CrudSchema
