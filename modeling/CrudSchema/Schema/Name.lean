import CrudSchema.Text.Quoted

/-!
# Names of a schema

**Legal names** (`checkName`). One or more letters, digits and underscores of ASCII, the first no
digit. All but the first character are looked at before the first.

**Enum values** (`checkValueName`). A legal name that is none of `true`, `false` and `null`.

**Reserved names.** The scalars and the types of introspection have names that nothing else may
bear (`reservedTypes`); and every name that begins with two underscores is kept for introspection
(`isIntrospective`).
-/

namespace CrudSchema.Schema

inductive IllegalName where
  | empty
  | character (name : String)
  | start (name : String)
  | value (name : String)
  deriving DecidableEq, Repr

def IllegalName.message : IllegalName → String
  | .empty => "Expected name to be a non-empty string."
  | .character name =>
    "Names must only contain [_a-zA-Z0-9] but " ++ Text.quoted name ++ " does not."
  | .start name => "Names must start with [_a-zA-Z] but " ++ Text.quoted name ++ " does not."
  | .value name => "Enum values cannot be named: " ++ name ++ "."

/-- A letter of ASCII or the underscore. -/
def isNameStart (c : Char) : Bool := c.isAlpha || c = '_'

def isNameContinue (c : Char) : Bool := c.isAlphanum || c = '_'

/-! ## Checks -/

def checkName (name : String) : Except IllegalName Unit :=
  match name.toList with
  | [] => .error .empty
  | first :: rest =>
    if !rest.all isNameContinue then .error (.character name)
    else if !isNameStart first then .error (.start name)
    else .ok ()

/-- Check names in order. -/
def checkNames : List String → Except IllegalName Unit
  | [] => .ok ()
  | name :: rest => do checkName name; checkNames rest

def checkValueName (name : String) : Except IllegalName Unit := do
  checkName name
  if name ∈ ["true", "false", "null"] then .error (.value name)

def checkValueNames : List String → Except IllegalName Unit
  | [] => .ok ()
  | name :: rest => do checkValueName name; checkValueNames rest

/-! ## Reserved names -/

def introspectionTypes : List String :=
  ["__Schema", "__Directive", "__DirectiveLocation", "__Type", "__Field", "__InputValue",
    "__EnumValue", "__TypeKind"]

def isIntrospective (name : String) : Bool :=
  match name.toList with
  | '_' :: '_' :: _ => true
  | _ => false

example : (checkName "1-").toOption = none ∧ (checkName "_1").toOption = some () := by
  decide

end CrudSchema.Schema
