import CrudSchema.Yaml.Cursor

/-!
# Types of nodes

**Tags** (`Tag`). The type of a node, either written or found out.

**Finding out** (`ofPlain`). A plain scalar is a truth value, a number, null or a date if it has the
form of one, and else a text. The forms exclude each other, and each is a small pattern over
characters. Numbers may be grouped by underscores; there are five notations of whole numbers, the
fifth in base sixty. A line feed at the end does not change the form.
-/

namespace CrudSchema.Yaml

inductive Tag where
  | null
  | bool
  | int
  | float
  | timestamp
  | text
  | merge
  | default
  | binary
  | sequence
  | pairs
  | mapping
  | set
  | other (name : String)
  deriving DecidableEq, Repr

namespace Tag

/-- What the names of the usual types begin with. -/
def stem : String := "tag:yaml.org,2002:"

/-- The names of the usual types. -/
def names : List (String × Tag) :=
  [("null", .null), ("bool", .bool), ("int", .int), ("float", .float), ("timestamp", .timestamp),
    ("str", .text), ("merge", .merge), ("value", .default), ("binary", .binary),
    ("seq", .sequence), ("omap", .pairs), ("pairs", .pairs), ("map", .mapping),
    ("set", .set)].map fun (name, tag) => (stem ++ name, tag)

/-- The type of a written-out name. -/
def ofName (name : String) : Tag := (names.lookup name).getD (.other name)

/-! ## Patterns -/

/-- Decimal digits, without more. -/
def isDigits (cs : List Char) : Bool := !cs.isEmpty && cs.all Char.isDigit

/-- A digit, and then digits and underscores. -/
def isGrouped : List Char → Bool
  | [] => false
  | c :: rest => c.isDigit && rest.all fun c => c.isDigit || c = '_'

/-- The text without a sign in front. -/
def unsigned : List Char → List Char
  | '+' :: rest => rest
  | '-' :: rest => rest
  | cs => cs

/-- The parts between colons. -/
def colonParts (cs : List Char) : List (List Char) := cs.splitOn ':'

/-- A digit of base sixty, written with one digit or two. -/
def isSixtieth : List Char → Bool
  | [c] => c.isDigit
  | [c, d] => '0' ≤ c && c ≤ '5' && d.isDigit
  | _ => false

def isWholeDigits : List Char → Bool
  | ['0'] => true
  | '0' :: 'b' :: cs => !cs.isEmpty && cs.all fun c => c = '0' || c = '1' || c = '_'
  | '0' :: 'x' :: cs => !cs.isEmpty && cs.all fun c => c.isDigit || 'a' ≤ c && c ≤ 'f' ||
      'A' ≤ c && c ≤ 'F' || c = '_'
  | '0' :: cs => cs.all fun c => '0' ≤ c && c ≤ '7' || c = '_'
  | cs =>
    match colonParts cs with
    | first :: more => isGrouped first && more.all isSixtieth
    | [] => false

def isWhole (cs : List Char) : Bool := isWholeDigits (unsigned cs)

/-- Nothing, or an exponent with its sign. -/
def isExponent : List Char → Bool
  | [] => true
  | e :: sign :: digits =>
    (e = 'e' || e = 'E') && (sign = '+' || sign = '-') && isDigits digits
  | _ => false

/-- Digits and underscores, and perhaps an exponent. -/
def isFraction (cs : List Char) : Bool :=
  isExponent (cs.dropWhile fun c => c.isDigit || c = '_')

/-- The same without an exponent. -/
def isPlainFraction (cs : List Char) : Bool := cs.all fun c => c.isDigit || c = '_'

def infinityWords : List (List Char) := [".inf", ".Inf", ".INF"].map String.toList

def nanWords : List (List Char) := [".nan", ".NaN", ".NAN"].map String.toList

/-- The two sides of the first point. -/
def pointParts? (cs : List Char) : Option (List Char × List Char) :=
  match cs.dropWhile (· ≠ '.') with
  | _ :: fraction => some (cs.takeWhile (· ≠ '.'), fraction)
  | [] => none

/-- Digits of base sixty before a point, two of them or more. -/
def isSixtieths (cs : List Char) : Bool :=
  match colonParts cs with
  | first :: second :: more => isGrouped first && (second :: more).all isSixtieth
  | _ => false

def isFractional (cs : List Char) : Bool :=
  infinityWords.contains (unsigned cs) || nanWords.contains cs ||
    match pointParts? cs with
    | none => false
    | some ([], digit :: rest) => digit.isDigit && isFraction rest
    | some ([], []) => false
    | some (whole, fraction) =>
      isGrouped (unsigned whole) && isFraction fraction ||
        isSixtieths (unsigned whole) && isPlainFraction fraction

def trueWords : List String := ["yes", "Yes", "YES", "true", "True", "TRUE", "on", "On", "ON"]

def falseWords : List String := ["no", "No", "NO", "false", "False", "FALSE", "off", "Off", "OFF"]

def nullWords : List String := ["", "~", "null", "Null", "NULL"]

/-- Characters that stand for something else where they are not quoted. -/
def indicatorWords : List String := ["!", "&", "*"]

end Tag

/-! ## Dates -/

/-- The parts of a date, and of a time if there is one, as they are written. -/
structure Stamp where
  year : List Char
  month : List Char
  day : List Char
  time : Option (List Char × List Char × List Char × List Char × List Char)
  deriving Repr

namespace Stamp

def isBlank (c : Char) : Bool := c = ' ' || c = '\t'

/-- One digit or two, and the rest. -/
def digitPair (cs : List Char) : Option (List Char × List Char) :=
  let digits := (cs.take 2).takeWhile Char.isDigit
  if digits.isEmpty then none else some (digits, cs.drop digits.length)

/-- So many digits, and the rest. -/
def digits? (n : Nat) (cs : List Char) : Option (List Char × List Char) :=
  let digits := cs.take n
  if digits.length = n && digits.all Char.isDigit then some (digits, cs.drop n) else none

/-- The rest behind a character that must be in front. -/
def behind? (c : Char) : List Char → Option (List Char)
  | d :: rest => if d = c then some rest else none
  | [] => none

/-- What stands between a date and a time. -/
def behindGap? : List Char → Option (List Char)
  | c :: rest =>
    if c = 'T' || c = 't' then some rest
    else if isBlank c then some (rest.dropWhile isBlank)
    else none
  | [] => none

/-- The offset of a time: nothing, `Z`, or a sign and hours and perhaps minutes. -/
def isZone : List Char → Bool
  | [] => true
  | ['Z'] => true
  | c :: cs =>
    (c = '+' || c = '-') &&
      match digitPair cs with
      | some (_, []) => true
      | some (_, ':' :: minutes) => minutes.length = 2 && minutes.all Char.isDigit
      | _ => false

/-- A time: hour, minute, second, the digits of its fraction, and its offset. -/
def time? (cs : List Char) :
    Option (List Char × List Char × List Char × List Char × List Char) := do
  let (hour, cs) ← digitPair cs
  let (minute, cs) ← digits? 2 (← behind? ':' cs)
  let (second, cs) ← digits? 2 (← behind? ':' cs)
  let (fraction, cs) := match cs with
    | '.' :: cs => (cs.takeWhile Char.isDigit, cs.dropWhile Char.isDigit)
    | cs => ([], cs)
  let zone := cs.dropWhile isBlank
  if isZone zone && (!zone.isEmpty || cs.isEmpty) then some (hour, minute, second, fraction, zone)
  else none

/-- The stamp that a text is. -/
def ofText? (cs : List Char) : Option Stamp := do
  let (year, cs) ← digits? 4 cs
  let (month, cs) ← digitPair (← behind? '-' cs)
  let (day, cs) ← digitPair (← behind? '-' cs)
  if cs.isEmpty then some ⟨year, month, day, none⟩
  else
    let time ← time? (← behindGap? cs)
    some ⟨year, month, day, some time⟩

/-- A date that stands alone is told by its two digits for month and day. -/
def isTelling (s : Stamp) : Bool :=
  s.time.isSome || s.month.length = 2 && s.day.length = 2

end Stamp

/-! ## Plain scalars -/

/-- The text without a line feed at its end, unless it is nothing else. -/
def dropLineFeed (cs : List Char) : List Char :=
  if cs.getLast? = some '\n' && 1 < cs.length then cs.dropLast else cs

/-- The type that a plain scalar has by its form. -/
def Tag.ofPlain (text : String) : Tag :=
  let cs := dropLineFeed text.toList
  let s := String.ofList cs
  if s ∈ trueWords || s ∈ falseWords then .bool
  else if isFractional cs then .float
  else if isWhole cs then .int
  else if s = "<<" then .merge
  else if s ∈ nullWords then .null
  else if (Stamp.ofText? cs).any Stamp.isTelling then .timestamp
  else if s = "=" then .default
  else if s ∈ indicatorWords then .other (stem ++ "yaml")
  else .text

end CrudSchema.Yaml
