import CrudSchema.Schema.Basic
import CrudSchema.Sdl.BlockString
import CrudSchema.Text.Quoted

/-!
# Writing a schema

**Blocks** (`printType`). Each type is a block, and blocks stand apart by an empty line. Scalars
need not be written. Members are indented by two blanks; a member with a description is set apart
from the member before it.

**Descriptions** (`printDescription`). A block string where reading gives it back, else a string
on one line with escapes (`quotedText`).

**The text** (`print`). Perhaps a header, then the types, then one line end.
-/

namespace CrudSchema.Schema

open Text

/-! ## Descriptions -/

/-- A character inside a string on one line. -/
def escapeChar (c : Char) : List Char :=
  match c with
  | '"' => ['\\', '"']
  | '\\' => ['\\', '\\']
  | '\n' => ['\\', 'n']
  | '\r' => ['\\', 'r']
  | '\t' => ['\\', 't']
  | c =>
    if c.toNat = 0x08 then ['\\', 'b']
    else if c.toNat = 0x0C then ['\\', 'f']
    else if c.toNat < 0x20 || 0x7F ≤ c.toNat && c.toNat ≤ 0x9F then
      '\\' :: 'u' :: hexDigits true 4 c.toNat
    else [c]

/-- A string on one line. -/
def quotedText (s : String) : List Char := '"' :: s.toList.flatMap escapeChar ++ ['"']

/-- A description as written before any indentation. -/
def describedText (s : String) : List Char :=
  if Sdl.BlockString.isPrintable s then Sdl.BlockString.print s else quotedText s

/-- Put the indentation after every line feed. -/
def indentLines (indentation : List Char) (cs : List Char) : List Char :=
  cs.flatMap fun c => if c = '\n' then '\n' :: indentation else [c]

/-- The lines before what is described; `first` if nothing stands before it in its block. -/
def printDescription (description : Option String) (indentation : List Char) (first : Bool) :
    List Char :=
  match description with
  | none => []
  | some s =>
    let gap := if !indentation.isEmpty && !first then ['\n'] else []
    gap ++ indentation ++ indentLines indentation (describedText s) ++ ['\n']

/-! ## Types -/

/-- Members in braces, one a line; nothing if there are none. -/
def printBlock (members : List (List Char)) : List Char :=
  if members.isEmpty then [] else [' ', '\x7b', '\n'] ++ join '\n' members ++ ['\n', '\x7d']

def indent : List Char := [' ', ' ']

/-- Write members, telling each whether it is the first. -/
def printMembers {α : Type} (member : Bool → α → List Char) : List α → List (List Char)
  | [] => []
  | a :: rest => member true a :: rest.map (member false)

/-- An argument or a field of an input with its type. -/
def printTyped (name : String) (type : WrappedType) : String := name ++ ": " ++ type.render

def printArguments (arguments : NameMap WrappedType) : String :=
  if arguments.isEmpty then ""
  else "(" ++ ", ".intercalate (arguments.entries.map fun (name, type) => printTyped name type) ++
    ")"

def printField (first : Bool) (field : String × OutputField) : List Char :=
  let (name, f) := field
  printDescription f.description indent first ++ indent ++
    (name ++ printArguments f.arguments ++ ": " ++ f.type.render).toList

def printInputField (first : Bool) (field : String × InputTypeField) : List Char :=
  let (name, f) := field
  printDescription f.description indent first ++ indent ++ (printTyped name f.type).toList

/-- The block of a type; scalars have none. -/
def printType : NamedType → Option (List Char)
  | .scalar _ => none
  | .object o => some <|
    printDescription o.description [] true ++ ("type " ++ o.name).toList ++
      printBlock (printMembers printField o.fields.entries)
  | .enum e => some <|
    printDescription e.description [] true ++ ("enum " ++ e.name).toList ++
      printBlock (e.values.map fun v => indent ++ v.toList)
  | .input i => some <|
    printDescription i.description [] true ++ ("input " ++ i.name).toList ++
      printBlock (printMembers printInputField i.fields.entries)

/-! ## The text -/

/-- Blocks with an empty line between them. -/
def joinBlocks : List (List Char) → List Char
  | [] => []
  | [block] => block
  | block :: more => block ++ '\n' :: '\n' :: joinBlocks more

/-- The comment at the head of generated files. -/
def generatedHeader : String :=
  "# Generated by crudgraph. Do not edit manually - regenerate with: crudgraph generate"

/-- The text of a schema, below a header unless that is empty. -/
def print (s : Schema) (header : String) : String :=
  let body := joinBlocks (s.types.filterMap printType)
  let whole := if header = "" then body else header.toList ++ '\n' :: '\n' :: body
  String.ofList (dropEndWhile isBlank whole ++ ['\n'])

end CrudSchema.Schema
