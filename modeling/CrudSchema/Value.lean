import CrudSchema.Number.Notation
import CrudSchema.Text.Quoted

/-!
# Settings as data

**Values** (`Value`). What a configuration file can hold before anyone knows what it is for: null,
truth values, numbers, texts, bytes, dates, and lists, pairs, mappings and sets of such values.

**Sharing** (`Data`). Values that are made of others are kept in one array, and a value refers to
one by its place there (`Value.compound`). So one list may stand in several places, and inside
itself.

**Mappings.** The entries of a mapping have distinct keys in order of first appearance, and the last
value given for a key counts (`setEntry`). Numbers are one key if they are equal, whatever their
type, and so are two times that are the same moment.

**Shown values** (`Data.render?`, `Data.typeName`). How messages show a value and name its type.
-/

namespace CrudSchema

/-! ## Dates -/

structure Date where
  year : Nat
  month : Nat
  day : Nat
  deriving DecidableEq, Repr

namespace Date

def isLeapYear (year : Nat) : Bool := year % 4 = 0 && (year % 100 ≠ 0 || year % 400 = 0)

def daysInMonth (year month : Nat) : Nat :=
  if month = 2 then (if isLeapYear year then 29 else 28)
  else if month ∈ [4, 6, 9, 11] then 30 else 31

/-- The number of days from the first day of the calendar on. -/
def ordinal (d : Date) : Nat :=
  let past := d.year - 1
  let months := (List.range (d.month - 1)).foldl (fun days m => days + daysInMonth d.year (m + 1)) 0
  365 * past + past / 4 - past / 100 + past / 400 + months + d.day

end Date

/-- A time of day, to the microsecond. -/
structure Time where
  hour : Nat
  minute : Nat
  second : Nat
  micro : Nat
  deriving DecidableEq, Repr

/-- The microseconds since midnight. -/
def Time.elapsed (t : Time) : Nat :=
  1000000 * (60 * (60 * t.hour + t.minute) + t.second) + t.micro

/-! ## Values -/

inductive Value where
  | null
  | bool (b : Bool)
  | int (n : Int)
  | float (x : Binary64)
  | text (s : String)
  | bytes (bs : List UInt8)
  | date (d : Date)
  /-- A date and a time, perhaps so many seconds ahead of universal time. -/
  | moment (d : Date) (t : Time) (ahead : Option Int)
  | compound (place : Nat)
  deriving DecidableEq, Repr

/-- A value made of others. -/
inductive Compound where
  | list (items : List Value)
  | pair (first second : Value)
  | map (entries : List (Value × Value))
  | set (members : List Value)
  deriving DecidableEq, Repr

structure Data where
  root : Value
  compounds : Array Compound := #[]
  deriving DecidableEq, Repr

namespace Value

/-- The whole number that a value counts as when it is compared. -/
def whole? : Value → Option Int
  | .bool b => some (if b then 1 else 0)
  | .int n => some n
  | .float x => x.toInt?
  | _ => none

/-- The microseconds of universal time up to a moment. -/
def instant (d : Date) (t : Time) (ahead : Int) : Int :=
  86400000000 * d.ordinal + t.elapsed - 1000000 * ahead

/-- The values are one key. What is not a number is no key that was seen before. -/
def sameKey (a b : Value) : Bool :=
  match a.whole?, b.whole? with
  | some m, some n => m = n
  | none, none =>
    match a, b with
    | .float .notANumber, _ => false
    | .moment d t (some ahead), .moment e u (some ahead') => instant d t ahead = instant e u ahead'
    | a, b => a = b
  | _, _ => false

end Value

/-! ## Parts of compounds -/

namespace Compound

/-- The values in a row that a compound is, but for a mapping. -/
def items? : Compound → Option (List Value)
  | .list items => some items
  | .pair first second => some [first, second]
  | .set members => some members
  | .map _ => none

def entries? : Compound → Option (List (Value × Value))
  | .map entries => some entries
  | _ => none

end Compound

namespace Data

def compound? (d : Data) : Value → Option Compound
  | .compound place => d.compounds[place]?
  | _ => none

/-- Data with one more compound, which is the root. -/
def add (d : Data) (c : Compound) : Data := ⟨.compound d.compounds.size, d.compounds.push c⟩

end Data

/-- The value of a textual key of a mapping. -/
def Value.field? (name : String) (entries : List (Value × Value)) : Option Value :=
  entries.lookup (.text name)

/-! ## Shown scalars -/

def commaSeparated (l : List String) : String := ", ".intercalate l

namespace Value

/-- A span of seconds as whole days and seconds of a day. -/
def renderSpan (seconds : Int) : String :=
  let days := seconds.fdiv 86400
  let rest := seconds.fmod 86400
  let parts := (if days = 0 then [] else ["days=" ++ toString days]) ++
    (if rest = 0 then [] else ["seconds=" ++ toString rest])
  "datetime.timedelta(" ++ (if parts.isEmpty then "0" else commaSeparated parts) ++ ")"

def renderZone (ahead : Int) : String :=
  if ahead = 0 then "datetime.timezone.utc"
  else "datetime.timezone(" ++ renderSpan ahead ++ ")"

/-- Seconds are left out if they are zero, and so are microseconds. -/
def renderMoment (d : Date) (t : Time) (ahead : Option Int) : String :=
  let fine :=
    if t.micro ≠ 0 then [t.second, t.micro] else if t.second ≠ 0 then [t.second] else []
  let numbers := ([d.year, d.month, d.day, t.hour, t.minute] ++ fine).map toString
  let zone := match ahead with
    | some seconds => ["tzinfo=" ++ renderZone seconds]
    | none => []
  "datetime.datetime(" ++ commaSeparated (numbers ++ zone) ++ ")"

/-- A number too long to be written is not shown. -/
def renderScalar? : Value → Option String
  | .null => some "None"
  | .bool b => some (if b then "True" else "False")
  | .int n => if Notation.isWritable n then some (toString n) else none
  | .float x => some x.render
  | .text s => some (Text.quoted s)
  | .bytes bs => some (Text.quotedBytes bs)
  | .date d =>
    some ("datetime.date(" ++ commaSeparated ([d.year, d.month, d.day].map toString) ++ ")")
  | .moment d t ahead => some (renderMoment d t ahead)
  | .compound _ => none

end Value

/-! ## Shown compounds -/

namespace Compound

def typeName : Compound → String
  | .list _ => "list"
  | .pair .. => "tuple"
  | .map _ => "dict"
  | .set _ => "set"

/-- What stands for a compound inside itself. -/
def ellipsis : Compound → String
  | .list _ => "[...]"
  | .pair .. => "(...)"
  | .map _ => "\x7b...\x7d"
  | .set _ => "set(...)"

/-- A compound by the way its parts are shown. -/
def renderBy? (part : Value → Option String) : Compound → Option String
  | .list items => do return "[" ++ commaSeparated (← items.mapM part) ++ "]"
  | .pair first second => do return "(" ++ commaSeparated [← part first, ← part second] ++ ")"
  | .map entries => do
    return "\x7b" ++ commaSeparated (← entries.mapM fun e => do
      return (← part e.1) ++ ": " ++ (← part e.2)) ++ "\x7d"
  | .set [] => some "set()"
  | .set members => do return "\x7b" ++ commaSeparated (← members.mapM part) ++ "\x7d"

end Compound

namespace Data

def typeName (d : Data) : Value → String
  | .null => "NoneType"
  | .bool _ => "bool"
  | .int _ => "int"
  | .float _ => "float"
  | .text _ => "str"
  | .bytes _ => "bytes"
  | .date _ => "date"
  | .moment .. => "datetime"
  | .compound place => ((d.compounds[place]?).map Compound.typeName).getD ""

/-- A value inside the compounds at some places, with so many levels left. Inside itself a compound
is not shown again; so there are no more levels than compounds. -/
def renderInside? (compounds : Array Compound) :
    (levels : Nat) → (inside : List Nat) → Value → Option String
  | levels, inside, .compound place => do
    let c ← compounds[place]?
    match levels with
    | 0 => some c.ellipsis
    | levels + 1 =>
      if inside.contains place then some c.ellipsis
      else c.renderBy? (renderInside? compounds levels (place :: inside))
  | _, _, v => v.renderScalar?

def render? (d : Data) (v : Value) : Option String :=
  renderInside? d.compounds (d.compounds.size + 1) [] v

end Data

end CrudSchema
