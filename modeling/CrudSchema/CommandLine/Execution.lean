import CrudSchema.Collection
import CrudSchema.CommandLine.Request
import CrudSchema.Config.File

/-!
# Carrying out a command line

**Progress** (`Progress`). The files as they are by now, what was written to the standard output
and the standard error, the records made, and the least level of those that are shown.

**Actions** (`Action`). A step may fail, and leaves its progress behind either way: what was
written before it failed stays written.

**Settings in force** (`settings`). Those of the settings file, or the defaults if there is none,
seen from the directory the file is in. What the command line says is put over them, and is seen
from where one stands. Records of the run are shown from the level in force on.

**Endings** (`Outcome`). A command ends with an exit code. Faults that are the user's to mend are
reported and end it with 1, a command line that cannot be read with 2; any other fault ends the
run as it is.
-/

namespace CrudSchema.CommandLine

/-! ## Progress -/

structure Progress where
  files : FileTree
  output : String := ""
  errors : String := ""
  journal : Journal := []
  threshold : LogLevel := .warning

abbrev Action := ExceptT Fault (StateM Progress)

namespace Progress

def write (p : Progress) (text : String) : Progress := { p with output := p.output ++ text }

def writeError (p : Progress) (text : String) : Progress := { p with errors := p.errors ++ text }

/-- Tell the user of an error. -/
def complain (p : Progress) (message : String) : Progress :=
  p.writeError ("Error: " ++ message ++ "\n")

/-- The lines of the records at or above a level. -/
def shownLines (threshold : LogLevel) (journal : Journal) : String :=
  String.join ((journal.filter fun r => threshold.rank ≤ r.level.rank).map fun r => r.line ++ "\n")

/-- Keep records, and show those at or above the threshold. -/
def log (p : Progress) (journal : Journal) : Progress :=
  { p.writeError (shownLines p.threshold journal) with journal := p.journal ++ journal }

end Progress

namespace Action

def printLine (line : String) : Action Unit := modify fun p => p.write (line ++ "\n")

def complain (messages : List String) : Action Unit :=
  modify fun p => messages.foldl Progress.complain p

/-- Take over what a computation gives, with its records shown. -/
def perform {α : Type} (run : Logged Fault α) : Action α := do
  modify fun p => p.log run.journal
  liftExcept run.result
where
  liftExcept : Except Fault α → Action α
    | .ok a => pure a
    | .error e => throw e

/-- Change the files. -/
def change (f : FileTree → Except Fault FileTree) : Action Unit := do
  let files ← perform (.ofExcept (f (← get).files))
  modify fun p => { p with files }

/-- Make a directory and those on the way to it; what was made stays if the next one fails. -/
def makeDirectories (path : Path) : Action Unit := do
  let (result, files) := (← get).files.makeDirectories path
  modify fun p => { p with files }
  perform (.ofExcept (result.mapError .file))

/-! ## Settings in force -/

/-- Settings with what the command line says put over them. -/
def override (c : Config) (s : Selection) (schemaPath : String) : Config where
  version := c.version
  types := if s.types.isEmpty then c.types else s.types
  schemaPath := if schemaPath.isEmpty then c.schemaPath else schemaPath
  logicalFilters := c.logicalFilters || s.logicalFilters
  header := c.header
  logLevel := c.logLevel

/-- Where the settings file is; it has to be named. -/
def locate : Option String → Action Path
  | some configPath => return .ofText configPath
  | none => throw .missingPath

/-- The settings in force for a command. -/
def settings (configPath : Option String) (s : Selection) (schemaPath : String) :
    Action Config := do
  let path ← locate configPath
  let found ← perform (.ofExcept (Config.load (← get).files path))
  let c := override ((found.getD {}).relativeTo path.parent) s schemaPath
  modify fun p => { p with threshold := if s.verbose then .debug else c.logLevel }
  return c

/-- The declarations that settings name, merged. -/
def declarations (c : Config) : Action TypeMap := do
  let documents ← perform (loadPaths (← get).files c.types none)
  perform ((merge documents).mapError fun e => .generation (.synthesis e))

/-! ## Commands -/

/-- Where declarations go in a new project. -/
def typesDirectory (configPath : Path) : Path :=
  configPath.parent.join (.ofText (({} : Config).types.headD ""))

/-- Write default settings, and make the directory they look for declarations in. -/
def init (configPath : Option String) (force : Bool) : Action Nat := do
  let path ← locate configPath
  if (← perform (.ofExcept (((← get).files.exists? path).mapError .file))) && !force then
    complain [path.text ++ " already exists. Use --force to overwrite."]
    return 1
  change fun files => ({} : Config).save files path
  printLine ("Created " ++ path.text)
  let directory := typesDirectory path
  change fun files => (files.ensureDirectory directory).mapError .file
  printLine ("Created " ++ directory.text ++ "/")
  printLine "Next steps:"
  printLine ("  1. Declare object types in " ++ directory.text ++ "/*.graphql")
  printLine "  2. Run 'crudgraph generate'"
  return 0

/-- Put a schema where the settings say. -/
def deliver (c : Config) (text : String) (typeCount : Nat) : Action Unit := do
  if c.schemaPath = Config.standardOutput then modify fun p => p.write text
  else
    let path := Path.ofText c.schemaPath
    makeDirectories path.parent
    change fun files => (files.write path text.toUTF8).mapError .file
    printLine ("Generated " ++ path.text ++ " (" ++ toString typeCount ++ " types)")

def generate (configPath : Option String) (s : Selection) (schemaPath : String) : Action Nat := do
  let c ← settings configPath s schemaPath
  let types ← declarations c
  let (api, schema) ← perform ((assembleTypes c.synthesisOptions types).mapError .generation)
  let header := if c.header then Schema.generatedHeader else ""
  deliver c (schema.print header) api.objects.size
  return 0

def check (configPath : Option String) (s : Selection) : Action Nat := do
  let c ← settings configPath s ""
  let types ← declarations c
  let (report, journal) := CrudSchema.check c.synthesisOptions types
  perform ⟨journal, .ok ()⟩
  match report.api with
  | none =>
    complain (report.faults.map SynthesisError.message)
    return 1
  | some api =>
    discard (perform ((Schema.assemble api).mapError fun e => .generation (.assembly e)))
    printLine ("OK: " ++ toString api.objects.size ++ " types, " ++ toString api.query.size ++
      " queries, " ++ toString api.mutation.size ++ " mutations")
    return 0

def command (configPath : Option String) : Command → Action Nat
  | .init force => init configPath force
  | .generate s schemaPath => generate configPath s schemaPath
  | .check s => check configPath s

end Action

/-! ## Runs -/

/-- How a run ends: with an exit code, or with a fault that nothing reports. -/
structure Outcome where
  ending : Except Fault Nat
  progress : Progress

def versionText : String := "crudgraph 0.1.0\n"

/-- Report a fault that is the user's to mend. -/
def report (e : Fault) (p : Progress) : Outcome :=
  if e.isReported then
    ⟨.ok 1, (p.log [⟨.debug, .program, "Command failed"⟩]).complain e.message⟩
  else ⟨.error e, p⟩

def execute (configPath : Option String) (c : Command) (files : FileTree) : Outcome :=
  match (ExceptT.run (Action.command configPath c)).run { files } with
  | (.ok code, p) => ⟨.ok code, p⟩
  | (.error e, p) => report e p

/-- Run the program on the words of a command line. -/
def run (words : List String) (files : FileTree) : Outcome :=
  match request words with
  | .error r => ⟨.ok 2, { files, errors := r.page.refusal r.fault }⟩
  | .ok (.help page) => ⟨.ok 0, { files, output := page.text }⟩
  | .ok .version => ⟨.ok 0, { files, output := versionText }⟩
  | .ok (.run configPath c) => execute configPath c files

end CrudSchema.CommandLine
