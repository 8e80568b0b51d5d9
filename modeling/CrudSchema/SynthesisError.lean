import CrudSchema.Text.Quoted

/-!
# Why declarations cannot become a schema

**Faults** (`SynthesisError`). One constructor per cause; the type and the field at fault are
part of it.

**Messages** (`message`). `[User.age] …`: the place in brackets, then what is wrong there
(`detail`). A place with neither type nor field is `[schema]`; empty names count as absent.
-/

namespace CrudSchema

inductive SynthesisError where
  /-- A fault put into words by the caller. -/
  | stated (detail : String) (typeName fieldName : Option String)
  | noTypes
  | reservedName (typeName : String)
  | duplicateField (typeName fieldName : String) (source : Option String)
  /-- Declarations of one name from these sources differ; a note replaces the usual detail. -/
  | duplicateType (typeName : String) (sources : List String) (note fieldName : Option String)
  /-- A derived name is the name of another type. -/
  | nameTaken (name : String)
  /-- Not exactly one field can be the identifier; these could. -/
  | missingIdentifier (typeName : String) (candidates : List String)
  | unsupportedType (typeName fieldName fieldType : String)
  | combinatorClash (typeName combinator : String)
  | duplicateOperation (operation firstType secondType : String)
  deriving DecidableEq, Repr

namespace SynthesisError

def typeName : SynthesisError → Option String
  | .stated _ typeName _ => typeName
  | .noTypes => none
  | .reservedName typeName | .duplicateField typeName _ _ | .duplicateType typeName _ _ _
  | .nameTaken typeName | .missingIdentifier typeName _ | .unsupportedType typeName _ _
  | .combinatorClash typeName _ | .duplicateOperation _ _ typeName => some typeName

def fieldName : SynthesisError → Option String
  | .stated _ _ fieldName | .duplicateType _ _ _ fieldName => fieldName
  | .duplicateField _ fieldName _ | .unsupportedType _ fieldName _
  | .combinatorClash _ fieldName => some fieldName
  | _ => none

/-- The sources a fault names. -/
def sources : SynthesisError → List String
  | .duplicateType _ sources _ _ => sources
  | .duplicateField _ _ (some source) => if source = "" then [] else [source]
  | _ => []

/-- What is wrong, without the place. -/
def detail : SynthesisError → String
  | .stated detail _ _ => detail
  | .noTypes => "No object types declared"
  | .reservedName _ => "Type name is reserved"
  | e@(.duplicateField ..) => "Field declared more than once" ++ inSources e.sources
  | .duplicateType _ _ (some note) _ => note
  | .duplicateType _ sources none _ => "Conflicting declarations" ++ inSources sources
  | .nameTaken _ => "Derived type name collides with an existing type"
  | .missingIdentifier _ [] => "Missing identifier, no field of type ID!"
  | .missingIdentifier _ candidates =>
    "Ambiguous identifier, found non-null ID fields " ++ Text.quotedList candidates
  | .unsupportedType _ _ fieldType => "Unsupported field type '" ++ fieldType ++ "'"
  | .combinatorClash _ combinator =>
    "Field name clashes with the '" ++ combinator ++ "' filter combinator"
  | .duplicateOperation operation firstType _ =>
    "Operation '" ++ operation ++ "' already derived from type '" ++ firstType ++ "'"
where
  inSources : List String → String
    | [] => ""
    | sources => " in " ++ ", ".intercalate sources

/-- The place at fault, as written between the brackets. -/
def place (e : SynthesisError) : String :=
  match (e.typeName.toList ++ e.fieldName.toList).filter (· ≠ "") with
  | [] => "schema"
  | parts => ".".intercalate parts

def message (e : SynthesisError) : String := "[" ++ e.place ++ "] " ++ e.detail

example : (duplicateField "A" "x" (some "a.graphql")).message =
    "[A.x] Field declared more than once in a.graphql" := by decide

end SynthesisError

end CrudSchema
