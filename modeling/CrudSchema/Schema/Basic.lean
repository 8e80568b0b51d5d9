import CrudSchema.Api

/-!
# Schemas

**Types of positions** (`WrappedType`). What a field or an argument holds: a named type, a list of
some type, or a type that may not be null. Marks are types of their own here, and the innermost
name is that of a type of the schema.

**Types** (`NamedType`). The scalars, the object types with all their fields resolved, enums and
inputs. A field of an object may take arguments; only the fields of the roots do.

**The schema** (`Schema`). Its types in the order in which they were reached. The types of
introspection belong to every schema and are left implicit.
-/

namespace CrudSchema

/-! ## Types of positions -/

inductive WrappedType where
  | named (name : String)
  | list (item : WrappedType)
  | nonNull (type : WrappedType)
  deriving DecidableEq, Repr

namespace WrappedType

/-- The type with the mark of a position. -/
def mark (nullable : Bool) (type : WrappedType) : WrappedType :=
  if nullable then type else .nonNull type

/-- The name inside all the lists and marks. -/
def innermost : WrappedType → String
  | .named n => n
  | .list item => item.innermost
  | .nonNull type => type.innermost

/-- The written form. -/
def render : WrappedType → String
  | .named n => n
  | .list item => "[" ++ item.render ++ "]"
  | .nonNull type => type.render ++ "!"

end WrappedType

/-! ## Named types -/

structure OutputField where
  type : WrappedType
  arguments : NameMap WrappedType := .empty
  description : Option String := none
  deriving DecidableEq

structure ObjectType where
  name : String
  fields : NameMap OutputField
  description : Option String := none
  deriving DecidableEq

structure InputTypeField where
  type : WrappedType
  description : Option String := none
  deriving DecidableEq, Repr

structure InputType where
  name : String
  fields : NameMap InputTypeField
  description : Option String := none
  deriving DecidableEq

inductive NamedType where
  | scalar (kind : ScalarKind)
  | object (o : ObjectType)
  | enum (e : EnumType)
  | input (i : InputType)
  deriving DecidableEq

/-- The names a field refers to, its own before those of its arguments. -/
def OutputField.references (f : OutputField) : List String :=
  f.type.innermost :: f.arguments.values.map WrappedType.innermost

namespace NamedType

def name : NamedType → String
  | .scalar kind => kind.name
  | .object o => o.name
  | .enum e => e.name
  | .input i => i.name

/-- The names a type refers to, in order. -/
def references : NamedType → List String
  | .scalar _ | .enum _ => []
  | .object o => o.fields.values.flatMap OutputField.references
  | .input i => i.fields.values.map fun f => f.type.innermost

end NamedType

/-! ## Schemas -/

structure Schema where
  types : List NamedType
  deriving DecidableEq

namespace Schema

def typeNames (s : Schema) : List String := s.types.map NamedType.name

/-- The input of a name. -/
def input? (s : Schema) (name : String) : Option InputType :=
  s.types.findSome? fun t =>
    match t with
    | .input i => if i.name = name then some i else none
    | _ => none

end Schema

end CrudSchema
