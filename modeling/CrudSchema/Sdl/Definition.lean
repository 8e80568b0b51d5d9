import CrudSchema.Sdl.Grammar

/-!
# The definitions of a text

**Definitions** (`Definition`). Object types are kept with their fields. Every other definition is
read for its kind and its name alone.

**Which definition** (`definitionOf?`, `extensionOf?`). The keyword in front decides, or the one
behind a description or behind `extend`.

**Texts** (`parse`). A text is one definition or more.
-/

namespace CrudSchema.Sdl

open Read

/-! ## Definitions -/

inductive Definition.Kind where
  | operation
  | fragment
  | schema
  | directive
  | scalarType
  | interfaceType
  | unionType
  | enumType
  | inputObjectType
  | schemaExtension
  | scalarExtension
  | objectExtension
  | interfaceExtension
  | unionExtension
  | enumExtension
  | inputObjectExtension
  deriving DecidableEq, Repr

def Definition.Kind.text : Definition.Kind → String
  | .operation => "operation_definition"
  | .fragment => "fragment_definition"
  | .schema => "schema_definition"
  | .directive => "directive_definition"
  | .scalarType => "scalar_type_definition"
  | .interfaceType => "interface_type_definition"
  | .unionType => "union_type_definition"
  | .enumType => "enum_type_definition"
  | .inputObjectType => "input_object_type_definition"
  | .schemaExtension => "schema_extension"
  | .scalarExtension => "scalar_type_extension"
  | .objectExtension => "object_type_extension"
  | .interfaceExtension => "interface_type_extension"
  | .unionExtension => "union_type_extension"
  | .enumExtension => "enum_type_extension"
  | .inputObjectExtension => "input_object_type_extension"

/-- An object type as it is written. -/
structure ObjectNode where
  name : String
  fields : List FieldNode
  description : Option String
  deriving DecidableEq, Repr

inductive Definition where
  | object (node : ObjectNode)
  | other (kind : Definition.Kind) (name : Option String)
  deriving DecidableEq, Repr

def schemaDefinition : Read Definition := do
  let _ ← constantDirectives
  expect .braceLeft
  let _ ← many .braceRight rootOperation
  pure (.other .schema none)

def scalarType : Read Definition := do
  let name ← expectName
  let _ ← constantDirectives
  pure (.other .scalarType (some name))

def objectType (description : Option String) : Read Definition := do
  let name ← expectName
  let _ ← interfaces
  let _ ← constantDirectives
  let fields ← fieldDefinitions
  pure (.object ⟨name, fields, description⟩)

def interfaceType : Read Definition := do
  let name ← expectName
  let _ ← interfaces
  let _ ← constantDirectives
  let _ ← fieldDefinitions
  pure (.other .interfaceType (some name))

def unionType : Read Definition := do
  let name ← expectName
  let _ ← constantDirectives
  let _ ← unionMembers
  pure (.other .unionType (some name))

def enumType : Read Definition := do
  let name ← expectName
  let _ ← constantDirectives
  let _ ← enumValues
  pure (.other .enumType (some name))

def inputObjectType : Read Definition := do
  let name ← expectName
  let _ ← constantDirectives
  let _ ← inputValues
  pure (.other .inputObjectType (some name))

def directiveDefinition : Read Definition := do
  expect .at
  let name ← expectName
  let _ ← optionalMany .parenLeft .parenRight inputValue
  let _ ← acceptKeyword "repeatable"
  expectKeyword "on"
  delimited .pipe directiveLocation
  pure (.other .directive (some name))

def operationDefinition : Read Definition := do
  let name ← match ← current with
    | .name n => do advance; pure (some n)
    | _ => pure none
  let _ ← optionalMany .parenLeft .parenRight variableDefinition
  let _ ← directives false maximalDepth
  selectionSet maximalDepth
  pure (.other .operation name)

def fragmentDefinition : Read Definition := do
  let t ← current
  fragmentName
  expectKeyword "on"
  let _ ← expectName
  let _ ← directives false maximalDepth
  selectionSet maximalDepth
  pure (.other .fragment t.value?)

/-- The rest of a definition, by the keyword that introduces it. -/
def definitionOf? (description : Option String) : String → Option (Read Definition)
  | "schema" => some schemaDefinition
  | "scalar" => some scalarType
  | "type" => some (objectType description)
  | "interface" => some interfaceType
  | "union" => some unionType
  | "enum" => some enumType
  | "input" => some inputObjectType
  | "directive" => some directiveDefinition
  | "query" => some operationDefinition
  | "mutation" => some operationDefinition
  | "subscription" => some operationDefinition
  | "fragment" => some fragmentDefinition
  | _ => none

/-! ## Extensions -/

/-- An extension adds something: one of these was there. -/
def requireAny (parts : List Bool) : Read Unit := do
  unless parts.any id do unexpected

def schemaExtension : Read Definition := do
  let directed ← constantDirectives
  let operations ← optionalMany .braceLeft .braceRight rootOperation
  requireAny [directed, !operations.isEmpty]
  pure (.other .schemaExtension none)

def scalarExtension : Read Definition := do
  let name ← expectName
  let directed ← constantDirectives
  requireAny [directed]
  pure (.other .scalarExtension (some name))

/-- An extension of an object or an interface type. -/
def fieldsExtension (kind : Definition.Kind) : Read Definition := do
  let name ← expectName
  let implementing ← interfaces
  let directed ← constantDirectives
  let fields ← fieldDefinitions
  requireAny [implementing, directed, !fields.isEmpty]
  pure (.other kind (some name))

def unionExtension : Read Definition := do
  let name ← expectName
  let directed ← constantDirectives
  let members ← unionMembers
  requireAny [directed, members]
  pure (.other .unionExtension (some name))

def enumExtension : Read Definition := do
  let name ← expectName
  let directed ← constantDirectives
  let values ← enumValues
  requireAny [directed, !values.isEmpty]
  pure (.other .enumExtension (some name))

def inputObjectExtension : Read Definition := do
  let name ← expectName
  let directed ← constantDirectives
  let fields ← inputValues
  requireAny [directed, !fields.isEmpty]
  pure (.other .inputObjectExtension (some name))

/-- The rest of an extension, by the keyword for what it extends. -/
def extensionOf? : String → Option (Read Definition)
  | "schema" => some schemaExtension
  | "scalar" => some scalarExtension
  | "type" => some (fieldsExtension .objectExtension)
  | "interface" => some (fieldsExtension .interfaceExtension)
  | "union" => some unionExtension
  | "enum" => some enumExtension
  | "input" => some inputObjectExtension
  | _ => none

def extension : Read Definition := do
  match ← next with
  | .name word =>
    match extensionOf? word with
    | some rest => do advance; advance; rest
    | none => throw (.unexpected (.name word))
  | t => throw (.unexpected t)

/-! ## Documents -/

/-- A definition whose description, if any, is still in front. -/
def definition : Read Definition := do
  let first ← current
  match first with
  | .punctuator .braceLeft => do selectionSet maximalDepth; pure (.other .operation none)
  | .string text | .blockString text =>
    match ← next with
    | .punctuator .braceLeft => throw .describedShorthand
    | .name word =>
      match definitionOf? (some text) word with
      | some rest => do advance; advance; rest
      | none => throw .describedOther
    | t => throw (.unexpected t)
  | .name word =>
    match definitionOf? none word with
    | some rest => do advance; rest
    | none => if word = "extend" then extension else throw (.unexpected first)
  | t => throw (.unexpected t)

/-- Definitions up to the end; at most `limit` of them. -/
def definitionsAtMost : Nat → Read (List Definition)
  | 0 => unexpected
  | limit + 1 => do
    let d ← definition
    if (← current) = .ending then pure [d]
    else do
      let more ← definitionsAtMost limit
      pure (d :: more)

/-- The definitions of a text, of which there is one at least. -/
def parse (text : String) : Except SyntaxError (List Definition) :=
  let lexemes := lex text.toList
  match (do let _ ← current; definitionsAtMost (lexemes.length + 1)).run lexemes with
  | .ok (definitions, _) => .ok definitions
  | .error e => .error e

end CrudSchema.Sdl
