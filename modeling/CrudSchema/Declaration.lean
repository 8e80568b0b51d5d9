import CrudSchema.OrderedMap
import CrudSchema.TypeRef

/-!
# Declared object types

**Declarations** (`Declaration`). An object type: its name, its fields in order and perhaps a
description. Field order matters, for it is the field order of everything derived.

**Shape** (`Declaration.shape`). What two declarations of one name must agree on: the fields
with their types and marks, in order. Descriptions are no part of it.

**Documents** (`Document`). The declarations of one source, in order.
-/

namespace CrudSchema

structure Field where
  name : String
  type : TypeRef
  nullable : Bool := true
  deriving DecidableEq, Repr

def Field.render (f : Field) : String := renderTyped f.name f.type f.nullable

structure Declaration where
  name : String
  fields : List Field := []
  description : Option String := none
  deriving DecidableEq, Repr

namespace Declaration

def fieldNames (d : Declaration) : List String := d.fields.map Field.name

/-- The first field of a name. -/
def field? (d : Declaration) (name : String) : Option Field :=
  d.fields.find? fun f => f.name == name

/-- What redeclarations must repeat. -/
def shape (d : Declaration) : List Field := d.fields

end Declaration

/-- The source of a text that was given without one. -/
def defaultSource : String := "<string>"

structure Document where
  source : String := defaultSource
  types : List Declaration := []
  deriving DecidableEq, Repr

def Document.typeNames (d : Document) : List String := d.types.map Declaration.name

/-- Declared types by name. -/
abbrev TypeMap := NameMap Declaration

end CrudSchema
