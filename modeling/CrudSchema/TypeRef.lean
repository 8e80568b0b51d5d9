/-!
# Types of fields and arguments

**Scalar kinds** (`ScalarKind`). The five built-in scalars.

**References** (`TypeRef`). A name, or a list of a reference with a mark on whether the items
may be null. A position may also have been left without any type; `missing` stands for that,
and nothing is ever declared or derived with it.

**Notation** (`TypeRef.render`, `renderType`). `[User!]!` is a required list of required users.
The mark of a reference itself is not part of the reference: it belongs to the field or the
argument that carries it.
-/

namespace CrudSchema

/-! ## Scalar kinds -/

inductive ScalarKind where
  | id
  | boolean
  | int
  | float
  | string
  deriving DecidableEq, Repr

namespace ScalarKind

def all : List ScalarKind := [.id, .boolean, .int, .float, .string]

def name : ScalarKind → String
  | .id => "ID"
  | .boolean => "Boolean"
  | .int => "Int"
  | .float => "Float"
  | .string => "String"

/-- The kind with a given name. -/
def ofName? (s : String) : Option ScalarKind := all.find? fun k => k.name == s

theorem mem_all (k : ScalarKind) : k ∈ all := by cases k <;> decide

theorem name_injective {k l : ScalarKind} (h : k.name = l.name) : k = l := by
  revert h; cases k <;> cases l <;> decide

theorem ofName?_name (k : ScalarKind) : ofName? k.name = some k := by cases k <;> decide

theorem name_of_ofName? {s : String} {k : ScalarKind} (h : ofName? s = some k) : k.name = s := by
  simpa using List.find?_some h

end ScalarKind

/-! ## References -/

inductive TypeRef where
  | named (name : String)
  | list (item : TypeRef) (itemNullable : Bool)
  | missing
  deriving DecidableEq, Repr

namespace TypeRef

/-- The written form, without a mark of its own. -/
def render : TypeRef → String
  | .named n => n
  | .list item nullable => "[" ++ item.render ++ (if nullable then "" else "!") ++ "]"
  | .missing => "None"

/-- The name inside all the lists, if there is one. -/
def innermost? : TypeRef → Option String
  | .named n => some n
  | .list item _ => item.innermost?
  | .missing => none

/-- `[name!]` -/
def requiredListOf (name : String) : TypeRef := .list (.named name) false

def scalar (k : ScalarKind) : TypeRef := .named k.name

end TypeRef

/-- The written form with the mark for required. -/
def renderType (type : TypeRef) (nullable : Bool) : String :=
  type.render ++ if nullable then "" else "!"

/-- A name with its type, as fields and arguments are written. -/
def renderTyped (name : String) (type : TypeRef) (nullable : Bool) : String :=
  name ++ ": " ++ renderType type nullable

example : renderTyped "posts" (.requiredListOf "Post") false = "posts: [Post!]!" := by decide

end CrudSchema
