import CrudSchema.Declaration
import CrudSchema.Journal
import CrudSchema.Sdl.Definition

/-!
# Documents from text

**Conversion** (`TypeNode.convert`). The mark of a written type stands outside the type. A
declaration has it beside the type: on the list for an item, on the field for the whole.

**Loading** (`Document.load`). The object types of a text become the declarations of a document.
Every other definition is passed over with a warning that names it.
-/

namespace CrudSchema

/-! ## Conversion -/

namespace Sdl

/-- The reference that a written type stands for, and whether it may be null. -/
def TypeNode.convert : TypeNode → TypeRef × Bool
  | .nonNull type =>
    let (inner, _) := type.convert
    (inner, false)
  | .list item =>
    let (item, itemNullable) := item.convert
    (.list item itemNullable, true)
  | .named name => (.named name, true)

def FieldNode.convert (node : FieldNode) : Field :=
  let (type, nullable) := node.type.convert
  ⟨node.name, type, nullable⟩

def ObjectNode.convert (node : ObjectNode) : Declaration :=
  ⟨node.name, node.fields.map FieldNode.convert, node.description⟩

end Sdl

/-! ## Loading -/

/-- A text that is not in the schema language, with the source it came from. -/
structure DeclarationSyntaxError where
  source : String
  detail : String
  deriving DecidableEq, Repr

def DeclarationSyntaxError.message (e : DeclarationSyntaxError) : String :=
  e.source ++ ": " ++ e.detail

namespace Document

/-- The warning for a definition that declares no object type. -/
def skippedRecord (source : String) (kind : Sdl.Definition.Kind) (name : Option String) : Record :=
  ⟨.warning, .loading, source ++ ": skipping " ++ kind.text ++
    (match name with | some n => " " ++ n | none => "")⟩

/-- The document that some definitions make, and the warnings for those passed over. -/
def ofDefinitions (source : String) : List Sdl.Definition → Document × Journal
  | [] => (⟨source, []⟩, [])
  | .object node :: rest =>
    let (document, journal) := ofDefinitions source rest
    ({ document with types := node.convert :: document.types }, journal)
  | .other kind name :: rest =>
    let (document, journal) := ofDefinitions source rest
    (document, skippedRecord source kind name :: journal)

/-- The document of a text. -/
def load (source text : String) : Logged DeclarationSyntaxError Document :=
  match Sdl.parse text with
  | .error e => .fail ⟨source, e.message⟩
  | .ok definitions =>
    let (document, journal) := ofDefinitions source definitions
    ⟨journal, .ok document⟩

end Document

end CrudSchema
