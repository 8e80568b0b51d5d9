import CrudSchema.Value

/-!
# What is wrong with settings

**Complaints** (`Complaint`). What a setting must be and is not. Each has a code, by which it can
be looked up, and a sentence.

**Issues** (`Issue`). A complaint with the place it is about and the value found there.
`Issue.lines` is how an issue is shown; a long value is cut in the middle (`abridged`).
-/

namespace CrudSchema.Config

inductive Complaint where
  | notMapping
  | notInteger
  | unreadableInteger
  | oversizedInteger
  | fractionalInteger
  | infiniteInteger
  | notBoolean
  | unreadableBoolean
  | notList
  | notText
  | unreadableText
  | noTypes
  | unknownLevel
  deriving DecidableEq, Repr

namespace Complaint

def code : Complaint → String
  | .notMapping => "model_type"
  | .notInteger => "int_type"
  | .unreadableInteger => "int_parsing"
  | .oversizedInteger => "int_parsing_size"
  | .fractionalInteger => "int_from_float"
  | .infiniteInteger => "finite_number"
  | .notBoolean => "bool_type"
  | .unreadableBoolean => "bool_parsing"
  | .notList => "list_type"
  | .notText => "string_type"
  | .unreadableText => "string_unicode"
  | .noTypes => "value_error"
  | .unknownLevel => "literal_error"

def sentence : Complaint → String
  | .notMapping => "Input should be a valid dictionary or instance of CrudgraphConfig"
  | .notInteger => "Input should be a valid integer"
  | .unreadableInteger =>
    "Input should be a valid integer, unable to parse string as an integer"
  | .oversizedInteger => "Unable to parse input string as an integer, exceeded maximum size"
  | .fractionalInteger =>
    "Input should be a valid integer, got a number with a fractional part"
  | .infiniteInteger => "Input should be a finite number"
  | .notBoolean => "Input should be a valid boolean"
  | .unreadableBoolean => "Input should be a valid boolean, unable to interpret input"
  | .notList => "Input should be a valid list"
  | .notText => "Input should be a valid string"
  | .unreadableText =>
    "Input should be a valid string, unable to parse raw data as a unicode string"
  | .noTypes => "Value error, at least one type declaration path is required"
  | .unknownLevel => "Input should be 'DEBUG', 'INFO', 'WARNING' or 'ERROR'"

end Complaint

/-- A step on the way to a setting. -/
inductive Step where
  | key (name : String)
  | item (index : Nat)
  deriving DecidableEq, Repr

def Step.text : Step → String
  | .key name => name
  | .item index => toString index

structure Issue where
  place : List Step
  complaint : Complaint
  found : Value

/-! ## Showing issues -/

/-- The longest beginning of at most so many bytes. -/
def takeBytes : Nat → List Char → List Char
  | _, [] => []
  | bytes, c :: rest =>
    if c.utf8Size ≤ bytes then c :: takeBytes (bytes - c.utf8Size) rest else []

/-- A text of more than 50 bytes is cut down to its first 25 and its last 24. -/
def abridged (s : String) : String :=
  if s.utf8ByteSize ≤ 50 then s
  else
    let ending := (takeBytes 24 s.toList.reverse).reverse
    String.ofList (takeBytes 25 s.toList ++ ['.', '.', '.'] ++ ending)

/-- A value as shown, or its type if it cannot be. -/
def shownValue (d : Data) (v : Value) : String :=
  (d.render? v).getD ("<unprintable " ++ d.typeName v ++ " object>")

/-- An issue of some data as shown: its place, what is wrong, and where to read more. -/
def Issue.lines (d : Data) (i : Issue) : List String :=
  let place := if i.place.isEmpty then [] else [".".intercalate (i.place.map Step.text)]
  place ++
    ["  " ++ i.complaint.sentence ++ " [type=" ++ i.complaint.code ++ ", input_value=" ++
      abridged (shownValue d i.found) ++ ", input_type=" ++ d.typeName i.found ++ "]",
     "    For further information visit https://errors.pydantic.dev/2.14/v/" ++ i.complaint.code]

/-- All issues of some data as shown, below a line that counts them. -/
def issuesText (d : Data) (issues : List Issue) : String :=
  let count := toString issues.length ++
    if issues.length = 1 then " validation error" else " validation errors"
  let heading := "Invalid configuration: " ++ count ++ " for CrudgraphConfig"
  "\n".intercalate (heading :: issues.flatMap (Issue.lines d))

end CrudSchema.Config
