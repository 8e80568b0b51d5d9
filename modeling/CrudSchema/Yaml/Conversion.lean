import CrudSchema.Text.Base64
import CrudSchema.Value
import CrudSchema.Yaml.Node

/-!
# The values of scalars

**By type** (`scalarValue`). A scalar is null, a truth value, a number, a date, a text or bytes, as
its type says. One that is not what its type says is a fault of its own kind.

**Numbers** (`integerOf`, `fractionalOf`). Underscores do not count. The first characters of a whole
number tell its base. Parts between colons are digits of base sixty.

**Dates** (`stampOf`). A date, or a moment with an offset perhaps, in the calendar.
-/

namespace CrudSchema.Yaml

/-! ## Whole numbers -/

def wholeIn (base : Nat) (cs : List Char) : Except ConversionError Int :=
  (Notation.readWhole base cs).mapError fun
    | .unreadable => .integer base (String.ofList cs)
    | .tooLong digits => .tooManyDigits digits

/-- Digits of base sixty, each given in base ten. -/
def sixtieths (parts : List (List Char)) : Except ConversionError Int := do
  let digits ← parts.mapM (wholeIn 10)
  return digits.foldl (fun n d => 60 * n + d) 0

/-- A whole number without its sign. A sign alone is no number at all. -/
def magnitudeOf : List Char → Except ConversionError Int
  | [] => .error .empty
  | ['0'] => .ok 0
  | '0' :: 'b' :: digits => wholeIn 2 digits
  | '0' :: 'x' :: digits => wholeIn 16 digits
  | '0' :: digits => wholeIn 8 ('0' :: digits)
  | digits =>
    match Tag.colonParts digits with
    | [_] => wholeIn 10 digits
    | parts => sixtieths parts

/-- The characters of a number without underscores; there must be one. -/
def numeralOf (cs : List Char) : Except ConversionError (List Char) :=
  match cs.filter (· ≠ '_') with
  | [] => .error .empty
  | numeral => .ok numeral

def integerOf (cs : List Char) : Except ConversionError Int := do
  let (negative, unsigned) := Notation.splitSign (← numeralOf cs)
  let n ← magnitudeOf unsigned
  return if negative then -n else n

/-! ## Numbers with a fraction -/

def decimalOf (cs : List Char) : Except ConversionError Binary64 :=
  match Notation.readDecimal? cs with
  | some x => .ok x
  | none => .error (.float (String.ofList cs))

/-- Numbers of base sixty with the last first: the sum of each times its power of sixty. -/
def sumSixtieths (sum : Binary64) (power : Nat) : List Binary64 → Except ConversionError Binary64
  | [] => .ok sum
  | x :: rest =>
    let scale := Binary64.ofNat power
    if scale.isFinite then sumSixtieths (sum.plus (x.times scale)) (60 * power) rest
    else .error .hugePower

def infinityWord : List Char := ".inf".toList

def nanWord : List Char := ".nan".toList

/-- A number with a fraction, without its sign, in small letters. -/
def fractionalMagnitude (cs : List Char) : Except ConversionError Binary64 :=
  if cs = infinityWord then .ok (.infinite false)
  else if cs = nanWord then .ok .notANumber
  else match Tag.colonParts cs with
    | [_] => decimalOf cs
    | parts => do sumSixtieths (.finite false 0 0) 1 (← parts.mapM decimalOf).reverse

/-- A number in small letters, without underscores: whether it is negative, and the rest. -/
def smallNumeral (text : String) : Except ConversionError (Bool × List Char) := do
  let cs ← numeralOf text.toList
  return Notation.splitSign (Text.lower (String.ofList cs)).toList

def fractionalOf (text : String) : Except ConversionError Binary64 := do
  let (negative, unsigned) ← smallNumeral text
  let x ← fractionalMagnitude unsigned
  return if negative then x.negate else x

/-- The text is the word for what is not a number. -/
def isNanWord (text : String) : Bool :=
  match smallNumeral text with
  | .ok (_, unsigned) => unsigned = nanWord
  | .error _ => false

/-! ## Dates -/

def dateOf (s : Stamp) : Except ConversionError Date :=
  let year := Text.decimalNumber s.year
  let month := Text.decimalNumber s.month
  let day := Text.decimalNumber s.day
  if year = 0 then .error (.year year)
  else if month = 0 || 12 < month then .error .month
  else if day = 0 || Date.daysInMonth year month < day then .error .day
  else .ok ⟨year, month, day⟩

/-- A fraction of a second in microseconds; further digits are dropped. -/
def microsOf (fraction : List Char) : Nat :=
  Text.decimalNumber ((fraction ++ List.replicate 6 '0').take 6)

def timeOf (hour minute second fraction : List Char) : Except ConversionError Time :=
  let h := Text.decimalNumber hour
  let m := Text.decimalNumber minute
  let s := Text.decimalNumber second
  if 23 < h then .error .hour
  else if 59 < m then .error .minute
  else if 59 < s then .error .second
  else .ok ⟨h, m, s, microsOf fraction⟩

/-- An offset in seconds; it is less than a day. -/
def offsetOf (zone : List Char) : Except ConversionError (Option Int) :=
  match zone with
  | [] => .ok none
  | ['Z'] => .ok (some 0)
  | sign :: rest =>
    let hours := Text.decimalNumber (rest.takeWhile Char.isDigit)
    let minutes := Text.decimalNumber ((rest.dropWhile Char.isDigit).drop 1)
    let span := 60 * (60 * hours + minutes)
    let seconds : Int := if sign = '-' then -(span : Int) else span
    if 86400 ≤ span then .error (.offset seconds) else .ok (some seconds)

def stampOf (s : Stamp) : Except ConversionError Value :=
  match s.time with
  | none => do return .date (← dateOf s)
  | some (hour, minute, second, fraction, zone) => do
    let ahead ← offsetOf zone
    let d ← dateOf s
    let t ← timeOf hour minute second fraction
    return .moment d t ahead

/-! ## Scalars -/

def truthOf (word : String) : Except ConversionError Bool :=
  let word := Text.lower word
  if word ∈ ["yes", "true", "on"] then .ok true
  else if word ∈ ["no", "false", "off"] then .ok false
  else .error (.truth word)

/-- Bytes in base 64, which is written in ASCII. -/
def bytesOf (text : String) : Except SyntaxError (List UInt8) :=
  let cs := text.toList
  match if cs.all fun c => c.toNat < 128 then Text.Base64.decode? cs else none with
  | some bytes => .ok bytes
  | none => .error .binary

/-- The value of a scalar of a type that scalars have. -/
def scalarValue? (tag : Tag) (text : String) : Option (Except Fault Value) :=
  match tag with
  | .null => some (.ok .null)
  | .bool => some (((truthOf text).map .bool).mapError .conversion)
  | .int => some (((integerOf text.toList).map .int).mapError .conversion)
  | .float => some (((fractionalOf text).map .float).mapError .conversion)
  | .timestamp =>
    match Stamp.ofText? (dropLineFeed text.toList) with
    | some s => some ((stampOf s).mapError .conversion)
    | none => some (.error (.conversion .stamp))
  | .text => some (.ok (.text text))
  | .binary => some (((bytesOf text).map .bytes).mapError .malformed)
  | _ => none

/-! ## Messages -/

/-- No more than so many characters of a text. -/
def cut (length : Nat) (s : String) : String := String.ofList (s.toList.take length)

def ConversionError.message : ConversionError → String
  | .codePoint => "chr() arg not in range(0x110000)"
  | .integer base text =>
    "invalid literal for int() with base " ++ toString base ++ ": " ++ cut 200 (Text.quoted text)
  | .tooManyDigits count =>
    "Exceeds the limit (4300 digits) for integer string conversion: value has " ++ toString count ++
      " digits; use sys.set_int_max_str_digits() to increase the limit"
  | .unwritable =>
    "Exceeds the limit (4300 digits) for integer string conversion; " ++
      "use sys.set_int_max_str_digits() to increase the limit"
  | .float text => "could not convert string to float: " ++ Text.quoted text
  | .hugePower => "int too large to convert to float"
  | .year n => "year " ++ toString n ++ " is out of range"
  | .month => "month must be in 1..12"
  | .day => "day is out of range for month"
  | .hour => "hour must be in 0..23"
  | .minute => "minute must be in 0..59"
  | .second => "second must be in 0..59"
  | .offset seconds =>
    "offset must be a timedelta strictly between -timedelta(hours=24) and " ++
      "timedelta(hours=24), not " ++ Value.renderSpan seconds ++ "."
  | .truth word => Text.quoted word
  | .empty => "string index out of range"
  | .stamp => "'NoneType' object has no attribute 'groupdict'"
  | .stampOfMapping => "expected string or bytes-like object, got 'list'"
  | .tooDeep => "maximum recursion depth exceeded"

end CrudSchema.Yaml
