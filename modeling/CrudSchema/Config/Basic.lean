import CrudSchema.Config.Issue
import CrudSchema.Journal
import CrudSchema.Synthesis
import CrudSchema.Text.Blank
import CrudSchema.Text.Numeral

/-!
# The configuration of a project

**Settings** (`Config`). Where the declarations are, where the schema goes, and how it is made.
Every setting has a default.

**From data** (`ofData`). Every setting that is there is read on its own, and all that is wrong is
told at once, in the order of the settings. Unknown settings are passed over.

**Lenient readings.** A whole number may be given as a truth value, as a number without fraction
or as a text (`readWhole`); a truth value as 0 or 1 or as a word for it (`readTruth`). The log
level may be given in any case.
-/

namespace CrudSchema

structure Config where
  version : Int := 1
  types : List String := ["types"]
  schemaPath : String := "schema.graphql"
  logicalFilters : Bool := false
  header : Bool := true
  logLevel : LogLevel := .warning
  deriving DecidableEq, Repr

namespace Config

/-- The name of the standard output where a path is expected. -/
def standardOutput : String := "-"

def synthesisOptions (c : Config) : SynthesisOptions := ⟨c.logicalFilters⟩

/-! ## Whole numbers -/

/-- A number in its plain form: a minus sign perhaps, and digits. -/
def plainInteger? (cs : List Char) : Option Int :=
  match cs with
  | '-' :: digits => (digits? digits).map fun n => -(n : Int)
  | digits => (digits? digits).map Int.ofNat
where
  digits? (cs : List Char) : Option Nat :=
    if !cs.isEmpty && cs.all Char.isDigit then some (Text.decimalNumber cs) else none

/-- What follows zeros and underscores; the last of them stays if no digit follows. -/
def afterZeros (last : Char) : List Char → Option (List Char)
  | [] => some [last]
  | c :: rest =>
    if c = '0' || c = '_' then afterZeros c rest
    else if c.isDigit || c = '-' then some (c :: rest)
    else if c = '.' then some (last :: c :: rest)
    else none

/-- Drop the zeros in front of a number. -/
def dropZeros : List Char → Option (List Char)
  | '0' :: rest => afterZeros '0' rest
  | c :: rest => if c.isDigit || c = '-' then some (c :: rest) else none
  | [] => none

/-- Drop a fraction of zeros. -/
def dropFraction (cs : List Char) : List Char :=
  match cs.dropWhile (· ≠ '.') with
  | _ :: '0' :: fraction => if fraction.all (· = '0') then cs.takeWhile (· ≠ '.') else cs
  | _ => cs

/-- Two underscores in a row. -/
def hasDoubled : List Char → Bool
  | '_' :: '_' :: _ => true
  | _ :: rest => hasDoubled rest
  | [] => false

/-- Drop the underscores, if each stands alone and inside. -/
def dropUnderscores (cs : List Char) : List Char :=
  if cs.head? = some '_' || cs.getLast? = some '_' || hasDoubled cs then cs
  else cs.filter (· ≠ '_')

/-- A text without a plus sign in front, unless a minus sign follows it. -/
def dropPlus : List Char → List Char
  | '+' :: '-' :: rest => '+' :: '-' :: rest
  | '+' :: rest => rest
  | cs => cs

/-- The number in a text, past blanks, a plus sign, zeros, underscores and an empty fraction. -/
def lenientInteger? (cs : List Char) : Option Int := do
  let digits ← dropZeros (dropPlus (Text.trimSpace cs))
  plainInteger? (dropUnderscores (dropFraction digits))

/-- Numbers that are too long to be written are not read. -/
def readIntegerText (s : String) : Except Complaint Int :=
  match lenientInteger? s.toList with
  | some n => if Notation.isWritable n then .ok n else .error .oversizedInteger
  | none => .error .unreadableInteger

/-- Numbers with a fraction are read up to this magnitude. -/
def fractionalLimit : Nat := Nat.pow 2 63

/-- The whole number that a number with a fraction part of zero is. -/
def wholeOf (x : Binary64) : Except Complaint Int :=
  if !x.isFinite then .error .infiniteInteger
  else match x.toInt? with
    | some n => if n.natAbs < fractionalLimit then .ok n else .error .oversizedInteger
    | none => .error .fractionalInteger

/-- The text that bytes encode. -/
def textOf? (bytes : List UInt8) : Option String := String.fromUTF8? ⟨bytes.toArray⟩

def readWhole : Value → Except Complaint Int
  | .int n => .ok n
  | .bool b => .ok (if b then 1 else 0)
  | .float x => wholeOf x
  | .text s => readIntegerText s
  | .bytes bs =>
    match textOf? bs with
    | some s => readIntegerText s
    | none => .error .unreadableInteger
  | _ => .error .notInteger

/-! ## Truth values -/

def trueWords : List String := ["1", "on", "t", "true", "y", "yes"]

def falseWords : List String := ["0", "off", "f", "false", "n", "no"]

/-- A text with the capitals of ASCII in lower case. -/
def lowerAscii (s : String) : String := String.ofList (s.toList.map Char.toLower)

def truthOf (n : Int) : Except Complaint Bool :=
  if n = 0 then .ok false else if n = 1 then .ok true else .error .unreadableBoolean

def readTruthText (s : String) : Except Complaint Bool :=
  if lowerAscii s ∈ trueWords then .ok true
  else if lowerAscii s ∈ falseWords then .ok false
  else .error .unreadableBoolean

def readTruth : Value → Except Complaint Bool
  | .bool b => .ok b
  | .int n =>
    if -(fractionalLimit : Int) ≤ n && n < fractionalLimit then truthOf n else .error .notBoolean
  | .float x =>
    match wholeOf x with
    | .ok n => truthOf n
    | .error _ => .error .notBoolean
  | .text s => readTruthText s
  | .bytes bs =>
    match textOf? bs with
    | some s => readTruthText s
    | none => .error .unreadableBoolean
  | _ => .error .notBoolean

/-! ## Texts and levels -/

def readText : Value → Except Complaint String
  | .text s => .ok s
  | .bytes bs =>
    match textOf? bs with
    | some s => .ok s
    | none => .error .unreadableText
  | _ => .error .notText

/-- Read a level; the value complained about is the one in upper case. -/
def readLevel (v : Value) : Except (Complaint × Value) LogLevel :=
  match v with
  | .text s =>
    match LogLevel.ofName? (Text.upper s) with
    | some level => .ok level
    | none => .error (.unknownLevel, .text (Text.upper s))
  | v => .error (.unknownLevel, v)

/-! ## Settings -/

/-- Issues found, and the value read or a default in place of it. -/
abbrev Reading (α : Type) := List Issue × α

/-- Read a setting, or take its default if it is not there. -/
def setting {α : Type} (entries : List (Value × Value)) (name : String) (default : α)
    (read : Value → Except Complaint α) : Reading α :=
  match Value.field? name entries with
  | none => ([], default)
  | some v =>
    match read v with
    | .ok a => ([], a)
    | .error complaint => ([⟨[.key name], complaint, v⟩], default)

/-- The texts of a list from an index on, and the issues of its other items. -/
def readItems (name : String) (index : Nat) : List Value → Reading (List String)
  | [] => ([], [])
  | v :: rest =>
    let (issues, texts) := readItems name (index + 1) rest
    match readText v with
    | .ok s => (issues, s :: texts)
    | .error complaint => (⟨[.key name, .item index], complaint, v⟩ :: issues, texts)

/-- The paths of the declarations: one text or more in a row. -/
def readTypes (d : Data) (name : String) (v : Value) : Reading (List String) :=
  match (d.compound? v).bind Compound.items? with
  | some [] => ([⟨[.key name], .noTypes, v⟩], [])
  | some items => readItems name 0 items
  | none => ([⟨[.key name], .notList, v⟩], [])

def typesSetting (d : Data) (entries : List (Value × Value)) (name : String)
    (default : List String) : Reading (List String) :=
  match Value.field? name entries with
  | none => ([], default)
  | some v => readTypes d name v

def levelSetting (entries : List (Value × Value)) (name : String) (default : LogLevel) :
    Reading LogLevel :=
  match Value.field? name entries with
  | none => ([], default)
  | some v =>
    match readLevel v with
    | .ok level => ([], level)
    | .error (complaint, found) => ([⟨[.key name], complaint, found⟩], default)

/-- The configuration in the entries of a mapping of some data. -/
def ofEntries (d : Data) (entries : List (Value × Value)) : Except (List Issue) Config :=
  let defaults : Config := {}
  let (i₁, version) := setting entries "version" defaults.version readWhole
  let (i₂, types) := typesSetting d entries "types" defaults.types
  let (i₃, schemaPath) := setting entries "schema_path" defaults.schemaPath readText
  let (i₄, logicalFilters) := setting entries "logical_filters" defaults.logicalFilters readTruth
  let (i₅, header) := setting entries "header" defaults.header readTruth
  let (i₆, logLevel) := levelSetting entries "log_level" defaults.logLevel
  match i₁ ++ i₂ ++ i₃ ++ i₄ ++ i₅ ++ i₆ with
  | [] => .ok { version, types, schemaPath, logicalFilters, header, logLevel }
  | issues => .error issues

/-- The configuration in some data. -/
def ofData (d : Data) : Except (List Issue) Config :=
  match (d.compound? d.root).bind Compound.entries? with
  | some entries => ofEntries d entries
  | none => .error [⟨[], .notMapping, d.root⟩]

end Config

end CrudSchema
