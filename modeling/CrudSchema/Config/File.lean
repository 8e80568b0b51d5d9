import CrudSchema.Config.Basic
import CrudSchema.Fault
import CrudSchema.Yaml.Writer

/-!
# Settings files

**Writing** (`print`). All settings, in their order, one below the other.

**Reading** (`ofText`). A mapping of settings. An empty file has no settings, so it stands for the
defaults.

**Paths in settings** (`relativeTo`). Declarations and output are named as seen from the directory
of the settings file. The standard output is where it is from everywhere.
-/

namespace CrudSchema.Config

/-! ## Writing -/

/-- The settings as entries of a document. -/
def entries (c : Config) : List (String × Yaml.Entry) :=
  [("version", .leaf (.int c.version)),
    ("types", .list (c.types.map .text)),
    ("schema_path", .leaf (.text c.schemaPath)),
    ("logical_filters", .leaf (.bool c.logicalFilters)),
    ("header", .leaf (.bool c.header)),
    ("log_level", .leaf (.text c.logLevel.name))]

def print (c : Config) : String := Yaml.print c.entries

/-- Write the settings to a file. A version with too many digits cannot be written. -/
def save (c : Config) (t : FileTree) (p : Path) : Except Fault FileTree :=
  if Notation.isWritable c.version then (t.write p c.print.toUTF8).mapError .file
  else .error (.conversion .unwritable)

/-! ## Reading -/

/-- The settings in a text, which is that of a file. -/
def ofText (p : Path) (text : String) : Except Fault Config :=
  match Yaml.read text with
  | .error (.malformed e) => .error (.config (.malformed p e))
  | .error (.conversion e) => .error (.conversion e)
  | .ok d =>
    if d.root = .null then .ok {}
    else match (d.compound? d.root).bind Compound.entries? with
      | some entries => (ofEntries d entries).mapError fun issues => .config (.invalid d issues)
      | none => .error (.config (.notMapping p))

/-- The settings in a file, if there is one. -/
def load (t : FileTree) (p : Path) : Except Fault (Option Config) := do
  if ← (t.exists? p).mapError .file then
    return some (← ofText p (← t.readText p))
  else return none

/-! ## Paths -/

/-- The settings as seen from where a base is. -/
def relativeTo (c : Config) (base : Path) : Config where
  version := c.version
  types := c.types.map fun path => (base.join (.ofText path)).text
  schemaPath :=
    if c.schemaPath = standardOutput then standardOutput
    else (base.join (.ofText c.schemaPath)).text
  logicalFilters := c.logicalFilters
  header := c.header
  logLevel := c.logLevel

end CrudSchema.Config
