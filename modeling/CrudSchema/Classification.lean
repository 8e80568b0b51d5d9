import CrudSchema.Declaration
import CrudSchema.Journal
import CrudSchema.SynthesisError

/-!
# What every field is

**Classes** (`FieldClass`). Each field is the identifier of its type, a scalar, a reference to a
declared type, or a list of one of these. Only a required field of type `ID` that stands in no
list is an identifier. Everything derived reads classes, never type references; a class still
tells its reference and mark (`typeRef`, `nullable`).

**Supported types** (`classify`). A reference is supported when its innermost name is a scalar or
a known type. A name that is both is a scalar.

**Identifiers** (`resolveIdentifier`). A type has exactly one field that can be its identifier.
That is settled before any field is classified, so a fault in it comes first (`classifyType`).
-/

namespace CrudSchema

/-! ## Classes -/

inductive FieldClass where
  | identifier
  | scalar (kind : ScalarKind) (nullable : Bool)
  | reference (typeName : String) (nullable : Bool)
  | list (item : FieldClass) (nullable : Bool)
  deriving DecidableEq, Repr

namespace FieldClass

def nullable : FieldClass → Bool
  | .identifier => false
  | .scalar _ nullable | .reference _ nullable | .list _ nullable => nullable

def isIdentifier : FieldClass → Bool
  | .identifier => true
  | _ => false

/-- The scalar kind of an identifier or a scalar. -/
def kind? : FieldClass → Option ScalarKind
  | .identifier => some .id
  | .scalar kind _ => some kind
  | .reference .. | .list .. => none

def label : FieldClass → String
  | .identifier => "identifier"
  | .scalar .. => "scalar"
  | .reference .. => "reference"
  | .list .. => "list"

/-- The reference a class was read from. -/
def typeRef : FieldClass → TypeRef
  | .identifier => .scalar .id
  | .scalar kind _ => .scalar kind
  | .reference typeName _ => .named typeName
  | .list item _ => .list item.typeRef item.nullable

end FieldClass

/-! ## Classifying fields -/

/-- The class of a reference with its mark, or the innermost name that is not supported. Only a
reference at the top can be an identifier. -/
def classifyRef (known : List String) (top : Bool) : TypeRef → Bool → Except String FieldClass
  | .list item itemNullable, nullable =>
    (classifyRef known false item itemNullable).map (.list · nullable)
  | .named name, nullable =>
    match ScalarKind.ofName? name with
    | some kind =>
      .ok (if kind = .id && top && !nullable then .identifier else .scalar kind nullable)
    | none => if name ∈ known then .ok (.reference name nullable) else .error name
  | .missing, _ => .error TypeRef.missing.render

/-- The class of a field of the named type. -/
def classify (known : List String) (typeName : String) (f : Field) :
    Except SynthesisError FieldClass :=
  (classifyRef known true f.type f.nullable).mapError (.unsupportedType typeName f.name)

/-- Classify fields in order, up to the first that is not supported. -/
def classifyFields (known : List String) (typeName : String) :
    List Field → Except SynthesisError (List (Field × FieldClass))
  | [] => .ok []
  | f :: rest => do
    let c ← classify known typeName f
    let more ← classifyFields known typeName rest
    .ok ((f, c) :: more)

/-! ## Identifiers -/

/-- The fields that can be the identifier of a declaration. -/
def identifierCandidates (d : Declaration) : List String :=
  (d.fields.filter fun f => f.type = .scalar .id && !f.nullable).map Field.name

/-- The one field that can be the identifier. -/
def resolveIdentifier (d : Declaration) : Except SynthesisError String :=
  match identifierCandidates d with
  | [name] => .ok name
  | candidates => .error (.missingIdentifier d.name candidates)

/-! ## Classifying types -/

/-- A declaration with the class of every field and the name of its identifier. -/
structure ClassifiedType where
  declaration : Declaration
  fields : List (Field × FieldClass)
  identifier : String
  deriving DecidableEq, Repr

namespace ClassifiedType

def name (t : ClassifiedType) : String := t.declaration.name

/-- The fields that do not bear the identifier's name. -/
def nonIdentifierFields (t : ClassifiedType) : List (Field × FieldClass) :=
  t.fields.filter fun f => f.1.name ≠ t.identifier

def record (t : ClassifiedType) : Record where
  level := .debug
  topic := .classification
  message := "Classified " ++ t.name ++ ": " ++
    ", ".intercalate (t.fields.map fun (f, c) => f.name ++ "=" ++ c.label)

end ClassifiedType

/-- Classify a declaration among known types. -/
def classifyType (known : List String) (d : Declaration) :
    Except SynthesisError ClassifiedType := do
  let identifier ← resolveIdentifier d
  let fields ← classifyFields known d.name d.fields
  .ok ⟨d, fields, identifier⟩

/-- `classifyType`, with a record of its success. -/
def classifyTypeLogged (known : List String) (d : Declaration) :
    Logged SynthesisError ClassifiedType :=
  match classifyType known d with
  | .ok t => ⟨[t.record], .ok t⟩
  | .error e => .fail e

end CrudSchema
