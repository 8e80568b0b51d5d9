import CrudSchema.Sdl.Read

/-!
# The parts of definitions

**What is kept** (`TypeNode`, `FieldNode`). Types, fields and descriptions are kept as they were
written. All other parts are read only to go past them: values, directives, arguments, selections,
interfaces.

**Depth** (`maximalDepth`). Lists, objects and selection sets may nest so many levels deep and no
deeper. The levels left are what the recursion counts down.
-/

namespace CrudSchema.Sdl

open Read

/-- How deep lists, objects and selection sets may nest. -/
def maximalDepth : Nat := 200

/-! ## Types and values -/

/-- A type as it is written. -/
inductive TypeNode where
  | named (name : String)
  | list (item : TypeNode)
  | nonNull (type : TypeNode)
  deriving DecidableEq, Repr

/-- A type reference, with so many levels of lists left. -/
def typeReference : (levels : Nat) → Read TypeNode
  | 0 => do
    if ← accept .bracketLeft then throw .tooDeep
    finish (.named (← expectName))
  | levels + 1 => do
    if ← accept .bracketLeft then
      let item ← typeReference levels
      expect .bracketRight
      finish (.list item)
    else finish (.named (← expectName))
where
  finish (type : TypeNode) : Read TypeNode := do
    if ← accept .bang then pure (.nonNull type) else pure type

/-- The name of an object's field and its colon. -/
def fieldLabel : Read Unit := do
  let _ ← expectName
  expect .colon

/-- A value whose items and fields are read by `inner`; without it nothing may nest any more. -/
def valueOf (constant : Bool) (inner : Option (Read Unit)) : Read Unit := do
  match ← current with
  | .punctuator .bracketLeft =>
    match inner with
    | none => throw .tooDeep
    | some item => do advance; let _ ← any .bracketRight item
  | .punctuator .braceLeft =>
    match inner with
    | none => throw .tooDeep
    | some item => do advance; let _ ← any .braceRight (do fieldLabel; item)
  | .punctuator .dollar => do
    advance
    if constant then
      match ← current with
      | .name n => throw (.variableInConstant n)
      | _ => throw (.unexpected (.punctuator .dollar))
    else let _ ← expectName
  | .int _ | .float _ | .string _ | .blockString _ | .name _ => advance
  | t => throw (.unexpected t)

def value (constant : Bool) : (levels : Nat) → Read Unit
  | 0 => valueOf constant none
  | levels + 1 => valueOf constant (some (value constant levels))

/-! ## Directives and arguments -/

def argument (constant : Bool) (levels : Nat) : Read Unit := do
  fieldLabel
  value constant levels

def arguments (constant : Bool) (levels : Nat) : Read Unit := do
  let _ ← optionalMany .parenLeft .parenRight (argument constant levels)

/-- Directives as long as there are any; at most `limit` of them. -/
def directivesAtMost (constant : Bool) (levels : Nat) : Nat → Read Unit
  | 0 => unexpected
  | limit + 1 => do
    if ← accept .at then
      let _ ← expectName
      arguments constant levels
      directivesAtMost constant levels limit

/-- Directives, and whether there were any. -/
def directives (constant : Bool) (levels : Nat) : Read Bool := do
  let before := (← get).length
  directivesAtMost constant levels (before + 1)
  pure ((← get).length < before)

def constantDirectives : Read Bool := directives true maximalDepth

/-! ## Executable definitions -/

/-- The name of a fragment, which is not `on`. -/
def fragmentName : Read Unit := do
  if (← current).value? = some "on" then unexpected
  let _ ← expectName

/-- A field, a spread or an inline fragment; `nested` reads a selection set inside it. -/
def selection (levels : Nat) (nested : Read Unit) : Read Unit := do
  if ← accept .spread then
    if ← acceptKeyword "on" then
      let _ ← expectName
      let _ ← directives false levels
      nested
    else match ← current with
      | .name _ => do fragmentName; let _ ← directives false levels
      | _ => do let _ ← directives false levels; nested
  else
    let _ ← expectName
    if ← accept .colon then let _ ← expectName
    arguments false levels
    let _ ← directives false levels
    if (← current) = .punctuator .braceLeft then nested

def selectionSet : (levels : Nat) → Read Unit
  | 0 => throw .tooDeep
  | levels + 1 => do
    expect .braceLeft
    let _ ← many .braceRight (selection levels (selectionSet levels))

/-! ## Parts of type definitions -/

/-- A description, if a string is in front. -/
def description : Read (Option String) := do
  match ← current with
  | .string v | .blockString v => do advance; pure (some v)
  | _ => pure none

/-- A default value, if there is one. -/
def defaultValue : Read Unit := do
  if ← accept .equals then value true maximalDepth

def inputValue : Read Unit := do
  let _ ← description
  let _ ← expectName
  expect .colon
  let _ ← typeReference maximalDepth
  defaultValue
  let _ ← constantDirectives

/-- A field as it is written, without its arguments. -/
structure FieldNode where
  name : String
  type : TypeNode
  deriving DecidableEq, Repr

def fieldDefinition : Read FieldNode := do
  let _ ← description
  let name ← expectName
  let _ ← optionalMany .parenLeft .parenRight inputValue
  expect .colon
  let type ← typeReference maximalDepth
  let _ ← constantDirectives
  pure ⟨name, type⟩

def fieldDefinitions : Read (List FieldNode) := optionalMany .braceLeft .braceRight fieldDefinition

def inputValues : Read (List Unit) := optionalMany .braceLeft .braceRight inputValue

/-- The interfaces of a type, and whether there were any. -/
def interfaces : Read Bool := do
  if ← acceptKeyword "implements" then
    delimited .ampersand (do let _ ← expectName)
    pure true
  else pure false

/-- The members of a union, and whether there were any. -/
def unionMembers : Read Bool := do
  if ← accept .equals then
    delimited .pipe (do let _ ← expectName)
    pure true
  else pure false

def enumValue : Read Unit := do
  let _ ← description
  let t ← current
  if t.value?.any fun v => v = "true" || v = "false" || v = "null" then
    throw (.reservedEnumValue t)
  let _ ← expectName
  let _ ← constantDirectives

def enumValues : Read (List Unit) := optionalMany .braceLeft .braceRight enumValue

/-- One of the three operation types. -/
def operationType : Read Unit := do
  let t ← current
  let word ← expectName
  unless ["query", "mutation", "subscription"].contains word do throw (.unexpected t)

def rootOperation : Read Unit := do
  operationType
  expect .colon
  let _ ← expectName

def directiveLocations : List String :=
  ["QUERY", "MUTATION", "SUBSCRIPTION", "FIELD", "FRAGMENT_DEFINITION", "FRAGMENT_SPREAD",
    "INLINE_FRAGMENT", "VARIABLE_DEFINITION", "SCHEMA", "SCALAR", "OBJECT", "FIELD_DEFINITION",
    "ARGUMENT_DEFINITION", "INTERFACE", "UNION", "ENUM", "ENUM_VALUE", "INPUT_OBJECT",
    "INPUT_FIELD_DEFINITION"]

def directiveLocation : Read Unit := do
  let t ← current
  let word ← expectName
  unless directiveLocations.contains word do throw (.unexpected t)

def variableDefinition : Read Unit := do
  let _ ← description
  expect .dollar
  let _ ← expectName
  expect .colon
  let _ ← typeReference maximalDepth
  defaultValue
  let _ ← constantDirectives

end CrudSchema.Sdl
