import CrudSchema.CommandLine.Page

/-!
# What a command line asks for

**Requests** (`Request`). A page of help, the version, or a command. The settings file is named
before the command, all else behind it. Instead of a file there may be two dashes, which name none.

**Refusals** (`Refusal`). A command line that cannot be read is refused on the page of the command
or the program it is about. Words that nothing takes are counted together at the end, those before
the command first, and are always a matter for the page of the program.

**Order.** Help and the version are shown as soon as they are reached, whatever is wrong with what
stands behind them.
-/

namespace CrudSchema.CommandLine

/-! ## Requests -/

/-- What a command is to work on, over what the settings file says. -/
structure Selection where
  types : List String := []
  logicalFilters : Bool := false
  verbose : Bool := false
  deriving DecidableEq, Repr

inductive Command where
  | init (force : Bool)
  | generate (selection : Selection) (schemaPath : String)
  | check (selection : Selection)
  deriving DecidableEq, Repr

inductive Request where
  | help (page : Page)
  | version
  | run (configPath : Option String) (command : Command)

structure Refusal where
  page : Page
  fault : UsageFault

def defaultConfigPath : String := "crudgraph.yaml"

/-! ## Switches -/

inductive ProgramKey where
  | help
  | version
  | config
  deriving DecidableEq, Repr

inductive CommandKey where
  | help
  | force
  | types
  | schema
  | logicalFilters
  | verbose
  deriving DecidableEq, Repr

def programSwitches : List (Switch ProgramKey) :=
  [⟨.help, ["-h", "--help"], .none⟩, ⟨.version, ["--version"], .none⟩,
    ⟨.config, ["--config", "-c"], .one⟩]

def helpSwitch : Switch CommandKey := ⟨.help, ["-h", "--help"], .none⟩

def typesSwitch : Switch CommandKey := ⟨.types, ["--types", "-t"], .oneOrMore⟩

def logicalSwitch : Switch CommandKey := ⟨.logicalFilters, ["--logical-filters"], .none⟩

def verboseSwitch : Switch CommandKey := ⟨.verbose, ["--verbose", "-v"], .none⟩

def initSwitches : List (Switch CommandKey) :=
  [helpSwitch, ⟨.force, ["--force", "-f"], .none⟩]

def generateSwitches : List (Switch CommandKey) :=
  [helpSwitch, typesSwitch, ⟨.schema, ["--schema", "-s"], .one⟩, logicalSwitch, verboseSwitch]

def checkSwitches : List (Switch CommandKey) :=
  [helpSwitch, typesSwitch, logicalSwitch, verboseSwitch]

/-! ## Commands -/

/-- What was chosen behind a command. -/
structure Choices where
  force : Bool := false
  schemaPath : String := ""
  selection : Selection := {}

namespace Choices

/-- Choose by one switch; a later choice replaces an earlier one. -/
def choose (c : Choices) (key : CommandKey) (words : List String) : Choices :=
  match key with
  | .help => c
  | .force => { c with force := true }
  | .types => { c with selection.types := words }
  | .schema => { c with schemaPath := words.headD "" }
  | .logicalFilters => { c with selection.logicalFilters := true }
  | .verbose => { c with selection.verbose := true }

/-- The choices and the words that nothing takes, unless help is asked for. -/
def ofEvents (c : Choices) (extras : List String) :
    List (Event CommandKey) → Option (Choices × List String)
  | [] => some (c, extras)
  | .given key words :: rest =>
    if key = .help then none else ofEvents (c.choose key words) extras rest
  | .extra word :: rest => ofEvents c (extras ++ [word]) rest
  | .command word words :: rest => ofEvents c (extras ++ word :: words) rest

end Choices

/-- How a command is asked for. -/
structure CommandForm where
  name : String
  page : Page
  switches : List (Switch CommandKey)
  command : Choices → Command

def commandForms : List CommandForm :=
  [⟨"init", .init, initSwitches, fun c => .init c.force⟩,
    ⟨"generate", .generate, generateSwitches, fun c => .generate c.selection c.schemaPath⟩,
    ⟨"check", .check, checkSwitches, fun c => .check c.selection⟩]

/-- What the words behind a command ask for, given the words in front of it that nothing takes. -/
def readCommand (form : CommandForm) (configPath : Option String) (extras words : List String) :
    Except Refusal Request :=
  let reading := read form.switches false words
  match Choices.ofEvents {} extras reading.events with
  | none => .ok (.help form.page)
  | some (choices, extras) =>
    match reading.fault with
    | some fault => .error ⟨form.page, fault⟩
    | none =>
      if extras.isEmpty then .ok (.run configPath (form.command choices))
      else .error ⟨.program, .unrecognized extras⟩

/-! ## The program -/

/-- What is asked for by what was found in a command line. -/
def ofEvents (configPath : Option String) (extras : List String) (fault : Option UsageFault) :
    List (Event ProgramKey) → Except Refusal Request
  | [] =>
    match fault, extras with
    | some fault, _ => .error ⟨.program, fault⟩
    | none, [] => .ok (.help .program)
    | none, extras => .error ⟨.program, .unrecognized extras⟩
  | .given .help _ :: _ => .ok (.help .program)
  | .given .version _ :: _ => .ok .version
  | .given .config words :: rest => ofEvents words.head? extras fault rest
  | .extra word :: rest => ofEvents configPath (extras ++ [word]) fault rest
  | .command name words :: _ =>
    match commandForms.find? fun form => form.name == name with
    | some form => readCommand form configPath extras words
    | none => .error ⟨.program, .unknownCommand name (commandForms.map CommandForm.name)⟩

/-- What a command line asks for. -/
def request (words : List String) : Except Refusal Request :=
  let reading := read programSwitches true words
  ofEvents (some defaultConfigPath) [] reading.fault reading.events

end CrudSchema.CommandLine
