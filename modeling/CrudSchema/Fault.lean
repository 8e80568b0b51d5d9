import CrudSchema.Config.Issue
import CrudSchema.FileTree
import CrudSchema.Generation
import CrudSchema.Text.Utf8
import CrudSchema.Yaml.Reader

/-!
# What can go wrong on the way from files to a schema

**Settings** (`ConfigError`). A settings file that is no YAML, is no mapping or holds wrong
settings, and declarations that are not where they are said to be.

**Faults** (`Fault`). Of all that can go wrong, the faults of settings, declarations and the
derived schema are the user's to mend, and a command reports them (`isReported`). What is left
(files that cannot be read or written, bytes that are no text, scalars that only look like
numbers, references that lead nowhere, a settings file that is not named, a reading without
anyone to read) ends the command as it is.
-/

namespace CrudSchema

inductive ConfigError where
  | invalid (d : Data) (issues : List Config.Issue)
  | malformed (path : Path) (e : Yaml.SyntaxError)
  | notMapping (path : Path)
  | missingDeclarations (path : Path)

def ConfigError.message : ConfigError → String
  | .invalid d issues => Config.issuesText d issues
  | .malformed path e => path.text ++ ": " ++ e.message
  | .notMapping path => path.text ++ ": expected a mapping at the top level"
  | .missingDeclarations path => "Type declaration path not found: " ++ path.text

inductive Fault where
  | config (e : ConfigError)
  | generation (e : GenerationError)
  | file (e : FileError)
  | encoding (e : Text.Malformed)
  | conversion (e : Yaml.ConversionError)
  | missingPath
  | noWorkers

namespace Fault

def isReported : Fault → Bool
  | .config _ => true
  | .generation (.assembly (.invalid _)) => true
  | .generation (.assembly _) => false
  | .generation _ => true
  | .file _ | .encoding _ | .conversion _ | .missingPath | .noWorkers => false

def message : Fault → String
  | .config e => e.message
  | .generation e => e.message
  | .file e => e.message
  | .encoding e => e.message
  | .conversion e => e.message
  | .missingPath => "expected str, bytes or os.PathLike object, not list"
  | .noWorkers => "max_workers must be greater than 0"

end Fault

/-- The text of a file. -/
def FileTree.readText (t : FileTree) (p : Path) : Except Fault String := do
  let bytes ← (t.read p).mapError .file
  (Text.decodeLines bytes).mapError .encoding

end CrudSchema
