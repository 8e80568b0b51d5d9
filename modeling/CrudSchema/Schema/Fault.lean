import CrudSchema.Schema.Name

/-!
# Why an API cannot become a schema

**References** (`ReferenceError`). A reference leads nowhere, or to a type of the wrong side.

**Assembly** (`AssemblyError`). The first thing that stops the assembly. Faults that only show in
the finished schema are told all at once (`invalid`).
-/

namespace CrudSchema.Schema

inductive ReferenceError where
  /-- There is no reference at all. -/
  | missing
  /-- There is no name in the lists of a reference. -/
  | nameless
  | unknown (name : String)
  | notOutput
  | argumentNotInput
  | fieldNotInput
  deriving DecidableEq, Repr

def ReferenceError.message : ReferenceError → String
  | .missing => "Unexpected type reference: None"
  | .nameless => "'NoneType' object has no attribute 'name'"
  | .unknown name => Text.quoted name
  | .notOutput => "Field type must be an output type."
  | .argumentNotInput => "Argument type must be a GraphQL input type."
  | .fieldNotInput => "Input field type must be a GraphQL input type."

inductive AssemblyError where
  | reservedType (name : String)
  | illegalName (fault : IllegalName)
  | reference (fault : ReferenceError)
  /-- A reference in the fields of a type is at fault. -/
  | unresolvedFields (typeName : String) (fault : ReferenceError)
  /-- Two types of one name were reached. -/
  | repeatedType (name : String)
  /-- The schema is complete, and these messages tell what is wrong with it. -/
  | invalid (messages : List String)
  deriving DecidableEq, Repr

def AssemblyError.message : AssemblyError → String
  | .reservedType name => "Redefinition of reserved type " ++ Text.quoted name
  | .illegalName fault => fault.message
  | .reference fault => fault.message
  | .unresolvedFields typeName fault => typeName ++ " fields cannot be resolved. " ++ fault.message
  | .repeatedType name =>
    "Schema must contain uniquely named types but contains multiple types named " ++
      Text.quoted name ++ "."
  | .invalid messages => "Schema assembly failed: " ++ Text.quotedList messages

end CrudSchema.Schema
