import CrudSchema.Registry
import CrudSchema.Schema.Assembly
import CrudSchema.Schema.Printer
import CrudSchema.Sdl.Document
import CrudSchema.Synthesis

/-!
# From texts to a schema

**The stages.** Texts are loaded one by one, their declarations merged, the merged map compiled to
an API, and the API assembled to a schema, which is then written. The first stage that fails ends
the run, and its fault is the fault of the run (`GenerationError`).
-/

namespace CrudSchema

inductive GenerationError where
  | declaration (e : DeclarationSyntaxError)
  | synthesis (e : SynthesisError)
  | assembly (e : Schema.AssemblyError)
  deriving DecidableEq, Repr

def GenerationError.message : GenerationError → String
  | .declaration e => e.message
  | .synthesis e => e.message
  | .assembly e => e.message

/-- The API of documents. -/
def synthesize (options : SynthesisOptions) (documents : List Document) :
    Logged SynthesisError Api :=
  (merge documents).bind (compile options)

/-- The schema of a merged map, and the API it was assembled from. -/
def assembleTypes (options : SynthesisOptions) (types : TypeMap) :
    Logged GenerationError (Api × Schema) := do
  let api ← (compile options types).mapError .synthesis
  let schema ← (Schema.assemble api).mapError .assembly
  return (api, schema)

/-- Load texts with their sources, in order. -/
def loadTexts : List (String × String) → Logged DeclarationSyntaxError (List Document)
  | [] => .pure []
  | (source, text) :: rest => do
    let document ← Document.load source text
    let more ← loadTexts rest
    return document :: more

/-- The source of a text by its place among the texts. -/
def placeSource (place : Nat) : String := "<string " ++ toString place ++ ">"

/-- The text of the schema that some texts declare, without a header. -/
def generateText (options : SynthesisOptions) (texts : List String) :
    Logged GenerationError String := do
  let sources := (List.range texts.length).map placeSource
  let documents ← (loadTexts (sources.zip texts)).mapError .declaration
  let types ← (merge documents).mapError .synthesis
  let (_, schema) ← assembleTypes options types
  return schema.print ""

end CrudSchema
