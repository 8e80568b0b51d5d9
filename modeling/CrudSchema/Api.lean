import CrudSchema.Declaration

/-!
# The derived API

**Inputs** (`InputObject`). A name and named fields, each with a type, a mark and perhaps a
description. Adding a field whose name is there replaces it where it stands.

**Operations** (`Operation`). Root fields with arguments and a return type; each remembers the
declared type it was derived from.

**The API** (`Api`). The declared objects and everything derived from them, ready to be
assembled into a schema.
-/

namespace CrudSchema

/-! ## Inputs and enums -/

structure InputField where
  type : TypeRef
  nullable : Bool := true
  description : Option String := none
  deriving DecidableEq, Repr

structure InputObject where
  name : String
  fields : NameMap InputField := .empty
  description : Option String := none
  deriving DecidableEq

namespace InputObject

def addField (i : InputObject) (name : String) (type : TypeRef) (nullable : Bool := true)
    (description : Option String := none) : InputObject :=
  { i with fields := i.fields.set name ⟨type, nullable, description⟩ }

/-- The fields with their written types. -/
def fieldTypes (i : InputObject) : List (String × String) :=
  i.fields.entries.map fun (name, f) => (name, renderType f.type f.nullable)

end InputObject

structure EnumType where
  name : String
  values : List String
  description : Option String := none
  deriving DecidableEq, Repr

/-! ## Operations -/

structure Argument where
  name : String
  type : TypeRef
  nullable : Bool := true
  deriving DecidableEq, Repr

def Argument.render (a : Argument) : String := renderTyped a.name a.type a.nullable

structure Operation where
  name : String
  typeName : String
  returnType : TypeRef
  arguments : List Argument := []
  returnNullable : Bool := false
  description : Option String := none
  deriving DecidableEq, Repr

/-- `users(limit: Int, offset: Int): [User!]!`; no parentheses without arguments. -/
def Operation.signature (o : Operation) : String :=
  let parameters :=
    if o.arguments.isEmpty then ""
    else "(" ++ ", ".intercalate (o.arguments.map Argument.render) ++ ")"
  o.name ++ parameters ++ ": " ++ renderType o.returnType o.returnNullable

/-! ## The API -/

/-- The names of the inputs derived from one type. -/
structure DerivedTypes where
  typeName : String
  identifier : String
  filterInput : String
  sortInput : String
  createInput : String
  updateInput : String
  deriving DecidableEq, Repr

structure Api where
  objects : TypeMap
  inputs : NameMap InputObject
  enums : NameMap EnumType
  query : NameMap Operation
  mutation : NameMap Operation
  derived : NameMap DerivedTypes
  deriving DecidableEq

end CrudSchema
