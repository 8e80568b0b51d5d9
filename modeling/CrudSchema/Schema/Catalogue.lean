import CrudSchema.Schema.Basic
import CrudSchema.Schema.Fault

/-!
# What names stand for

**The catalogue** (`Catalogue`). Every name a reference may use: the scalars, the declared objects,
the enums, and the inputs that have fields. A later definition takes the place of an earlier one of
the same name. The roots are not in it.

**Definitions** (`Definition`). What a name stands for, before its own references have been
followed. Following them (`Definition.resolve`) is left until the type is reached.

**Empty inputs** (`omits`). An input without fields has no place in a schema. It is left out, and
so are the arguments and the fields of inputs that refer to it.
-/

namespace CrudSchema.Schema

inductive Definition where
  | scalar (kind : ScalarKind)
  | object (d : Declaration)
  | enum (e : EnumType)
  | input (i : InputObject)
  deriving DecidableEq

abbrev Catalogue := NameMap Definition

namespace Definition

/-- A field may return it. -/
def isOutput : Definition → Bool
  | .scalar _ | .object _ | .enum _ => true
  | .input _ => false

/-- An argument or a field of an input may be of it. -/
def isInput : Definition → Bool
  | .scalar _ | .enum _ | .input _ => true
  | .object _ => false

end Definition

namespace Catalogue

/-! ## Building it -/

/-- Names that no definition may take. -/
def reservedTypes : List String := ScalarKind.all.map ScalarKind.name ++ introspectionTypes

def checkTypeName (name : String) : Except AssemblyError Unit :=
  if name ∈ reservedTypes then .error (.reservedType name)
  else (checkName name).mapError .illegalName

def scalars : Catalogue :=
  .ofList (ScalarKind.all.map fun kind => (kind.name, .scalar kind))

def addObjects (c : Catalogue) : List Declaration → Except AssemblyError Catalogue
  | [] => .ok c
  | d :: rest => do
    checkTypeName d.name
    addObjects (c.set d.name (.object d)) rest

/-- Values that occur again are dropped. -/
def addEnums (c : Catalogue) : List EnumType → Except AssemblyError Catalogue
  | [] => .ok c
  | e :: rest => do
    checkTypeName e.name
    let values := e.values.eraseDups
    (checkValueNames values).mapError .illegalName
    addEnums (c.set e.name (.enum { e with values })) rest

def addInputs (c : Catalogue) : List InputObject → Except AssemblyError Catalogue
  | [] => .ok c
  | i :: rest => do
    checkTypeName i.name
    addInputs (c.set i.name (.input i)) rest

/-- The catalogue of an API. -/
def ofApi (api : Api) : Except AssemblyError Catalogue := do
  let objects ← addObjects scalars api.objects.values
  let enums ← addEnums objects api.enums.values
  addInputs enums (api.inputs.values.filter fun i => !i.fields.isEmpty)

/-! ## Following references -/

/-- A reference as the type of a position with a mark. The innermost name must be in the
catalogue. -/
def wrap (c : Catalogue) : TypeRef → (nullable : Bool) → Except ReferenceError WrappedType
  | .list item itemNullable, nullable => do
    let item ← wrap c item itemNullable
    .ok (.mark nullable (.list item))
  | .named name, nullable =>
    if c.contains name then .ok (.mark nullable (.named name)) else .error (.unknown name)
  | .missing, _ => .error .missing

/-- The type of a position that only takes types on one side; if it is on the other, `fault`. -/
def typeOn (c : Catalogue) (side : Definition → Bool) (fault : ReferenceError) (type : TypeRef)
    (nullable : Bool) : Except ReferenceError WrappedType := do
  let wrapped ← c.wrap type nullable
  if (c.get? wrapped.innermost).any side then .ok wrapped else .error fault

end Catalogue

/-- The reference is to an input that is left out. -/
def omits (inputs : NameMap InputObject) (type : TypeRef) : Except ReferenceError Bool :=
  match type.innermost? with
  | none => .error .nameless
  | some name => .ok ((inputs.get? name).any fun i => i.fields.isEmpty)

/-! ## Following the references of a definition -/

/-- The declared fields as fields of a schema. -/
def outputFields (c : Catalogue) :
    List Field → Except ReferenceError (List (String × OutputField))
  | [] => .ok []
  | f :: rest => do
    let type ← c.typeOn Definition.isOutput .notOutput f.type f.nullable
    let more ← outputFields c rest
    .ok ((f.name, { type }) :: more)

/-- The fields of an input, without those left out. -/
def inputFields (c : Catalogue) (inputs : NameMap InputObject) :
    List (String × InputField) → Except ReferenceError (List (String × InputTypeField))
  | [] => .ok []
  | (name, f) :: rest => do
    if ← omits inputs f.type then inputFields c inputs rest
    else
      let type ← c.typeOn Definition.isInput .fieldNotInput f.type f.nullable
      let more ← inputFields c inputs rest
      .ok ((name, ⟨type, f.description⟩) :: more)

/-- The type of a definition. References are followed before field names are checked. -/
def Definition.resolve (c : Catalogue) (inputs : NameMap InputObject) :
    Definition → Except AssemblyError NamedType
  | .scalar kind => .ok (.scalar kind)
  | .enum e => .ok (.enum e)
  | .object d => do
    let fields ← (outputFields c d.fields).mapError (.unresolvedFields d.name)
    (checkNames (d.fieldNames.eraseDups)).mapError .illegalName
    .ok (.object ⟨d.name, .ofList fields, d.description⟩)
  | .input i => do
    let fields ← (inputFields c inputs i.fields.entries).mapError (.unresolvedFields i.name)
    (checkNames (fields.map Prod.fst)).mapError .illegalName
    .ok (.input ⟨i.name, .ofList fields, i.description⟩)

end CrudSchema.Schema
