import CrudSchema.Number.Binary64
import CrudSchema.Text.Blank
import CrudSchema.Text.Digit
import CrudSchema.Text.Numeral

/-!
# Numbers as they are written by hand

**Leniency.** Blanks around a number do not count, a sign may stand in front, and the digits may
be those of any script (`plainForm`).

**Whole numbers** (`readWhole`). In base 2, 8 or 16 the mark of the base may stand before the
digits. In base ten there is a limit to how many digits are read; it bounds what is written in base
ten as well (`isWritable`).

**Numbers with a fraction** (`readDecimal`). Digits with a point among them or none, and perhaps an
exponent; or the words for infinity and for what is not a number, in any case.
-/

namespace CrudSchema.Notation

/-! ## Characters -/

def isBlank (c : Char) : Bool := c = ' ' || '\t' ≤ c && c ≤ '\r'

/-- A character outside of ASCII stands for a blank or a digit, or for nothing that can be read. -/
def plainChar (c : Char) : Char :=
  if c.toNat < 127 then c
  else if Text.isSpace c then ' '
  else match Text.digitValue? c with
    | some d => Char.ofNat (48 + d)
    | none => '?'

/-- A text of ASCII stays as it is. -/
def plainForm (cs : List Char) : List Char :=
  if cs.all fun c => c.toNat < 128 then cs else cs.map plainChar

/-- Whether a minus sign is in front, and what stands behind the sign. -/
def splitSign : List Char → Bool × List Char
  | '+' :: rest => (false, rest)
  | '-' :: rest => (true, rest)
  | cs => (false, cs)

/-! ## Whole numbers -/

inductive WholeFault where
  | unreadable
  | tooLong (digits : Nat)
  deriving DecidableEq, Repr

/-- The most digits that are read or written in base ten. -/
def mostDigits : Nat := 4300

/-- The number can be written in base ten. -/
def isWritable (n : Int) : Bool := n.natAbs < Nat.pow 10 mostDigits

/-- The letter for a base, in small. -/
def baseLetter? : Nat → Option Char
  | 2 => some 'b'
  | 8 => some 'o'
  | 16 => some 'x'
  | _ => none

/-- The characters without the mark of the base in front. -/
def dropBaseMark (base : Nat) : List Char → List Char
  | '0' :: c :: rest => if some c.toLower = baseLetter? base then rest else '0' :: c :: rest
  | cs => cs

def digitIn? (base : Nat) (c : Char) : Option Nat := (Text.hexValue? c).filter (· < base)

def isDigitIn (base : Nat) (c : Char) : Bool := (digitIn? base c).isSome

/-- The number that digits of a base make. -/
def numberIn (base : Nat) (digits : List Char) : Nat :=
  digits.foldl (fun n c => base * n + (digitIn? base c).getD 0) 0

/-- The whole number in a text. -/
def readWhole (base : Nat) (cs : List Char) : Except WholeFault Int :=
  let (negative, cs) := splitSign ((plainForm cs).dropWhile isBlank)
  let cs := dropBaseMark base cs
  let digits := cs.takeWhile (isDigitIn base)
  let rest := cs.dropWhile (isDigitIn base)
  if base = 10 && mostDigits < digits.length then .error (.tooLong digits.length)
  else if digits.isEmpty || !rest.all isBlank then .error .unreadable
  else .ok (Binary64.signed negative (numberIn base digits))

/-! ## Numbers with a fraction -/

/-- The exponent in the rest of a number; there may be none. -/
def readExponent? : List Char → Option Int
  | [] => some 0
  | e :: cs =>
    let (negative, digits) := splitSign cs
    if (e = 'e' || e = 'E') && !digits.isEmpty && digits.all Char.isDigit then
      some (Binary64.signed negative (Text.decimalNumber digits))
    else none

/-- A number in digits, without its sign. -/
def readDigits? (negative : Bool) (cs : List Char) : Option Binary64 :=
  let whole := cs.takeWhile Char.isDigit
  let rest := cs.dropWhile Char.isDigit
  let (fraction, rest) := match rest with
    | '.' :: rest => (rest.takeWhile Char.isDigit, rest.dropWhile Char.isDigit)
    | rest => ([], rest)
  let digits := whole ++ fraction
  if digits.isEmpty then none
  else (readExponent? rest).map fun exponent =>
    .ofDecimal negative (Text.decimalNumber digits) (exponent - fraction.length)

def infinityWords : List (List Char) := ["inf", "infinity"].map String.toList

def nanWord : List Char := "nan".toList

/-- The number in a text. -/
def readDecimal? (cs : List Char) : Option Binary64 :=
  let (negative, cs) := splitSign (Text.dropEndWhile isBlank ((plainForm cs).dropWhile isBlank))
  let word := cs.map Char.toLower
  if infinityWords.contains word then some (.infinite negative)
  else if word = nanWord then some .notANumber
  else readDigits? negative cs

example : (readWhole 16 " -0x1F\n".toList).toOption = some (-31) := by decide
example : (readWhole 10 "1x".toList).toOption = none := by decide

end CrudSchema.Notation
