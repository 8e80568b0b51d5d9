import CrudSchema.Text.Case
import CrudSchema.TypeRef

/-!
# Derived names

**Operations.** `User` gives the queries `user` and `users` and the mutations `createUser`,
`updateUser` and `deleteUser`.

**Inputs of a type.** `UserFilterInput`, `UserSortInput`, `UserCreateInput`, `UserUpdateInput`.

**Inputs of a scalar kind.** `IntFilterInput`, `IntEqualityInput`, and one range input per pair
of operators, such as `IntLeGeInput`. Operators are joined in camel case: `le` and `ge` give
`leGe`.
-/

namespace CrudSchema.Naming

open Text

/-! ## Operations -/

def singleQuery (typeName : String) : String := lower typeName

def listQuery (typeName : String) : String := lower typeName ++ "s"

def createMutation (typeName : String) : String := "create" ++ typeName

def updateMutation (typeName : String) : String := "update" ++ typeName

def deleteMutation (typeName : String) : String := "delete" ++ typeName

/-! ## Inputs of a type -/

def filterInput (typeName : String) : String := typeName ++ "FilterInput"

def sortInput (typeName : String) : String := typeName ++ "SortInput"

def createInput (typeName : String) : String := typeName ++ "CreateInput"

def updateInput (typeName : String) : String := typeName ++ "UpdateInput"

/-- The enum of the two sort directions. -/
def sortDirection : String := "SortDirection"

/-! ## Inputs of a scalar kind -/

/-- Operators in one camel-case name. -/
def joinOperators (operators : List String) : String :=
  lowerFirst (String.join (operators.map upperFirst))

def scalarFilter (kind : ScalarKind) : String := filterInput kind.name

def scalarEquality (kind : ScalarKind) : String := kind.name ++ "EqualityInput"

def scalarRange (kind : ScalarKind) (operators : List String) : String :=
  kind.name ++ upperFirst (joinOperators operators) ++ "Input"

example : scalarRange .int ["le", "ge"] = "IntLeGeInput" := by decide

end CrudSchema.Naming
