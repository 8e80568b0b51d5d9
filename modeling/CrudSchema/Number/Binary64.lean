/-!
# Numbers with 53 significant bits

**Numbers** (`Binary64`). Plus or minus `m · 2 ^ e` with `m` below `2 ^ 53`, the infinities, and
what is not a number. A finite number is in lowest form: `m` has 53 bits, or `e` is as small as it
may be, or `m` is zero and so is `e`.

**Rounding** (`ofRatio`). The nearest number to a quotient; of two equally near ones, the one whose
`m` is even. Sums and products are rounded exact ones.

**Written form** (`render`). The fewest decimal digits that read back as the number, and among
those the nearest to it.
-/

namespace CrudSchema

inductive Binary64 where
  | notANumber
  | infinite (negative : Bool)
  | finite (negative : Bool) (mantissa : Nat) (exponent : Int)
  deriving DecidableEq, Repr

namespace Binary64

/-! ## Rounding -/

/-- The whole number nearest to a quotient, the even one of two. -/
def nearestWhole (num den : Nat) : Nat :=
  let quotient := num / den
  let twice := 2 * (num % den)
  if twice < den then quotient
  else if den < twice then quotient + 1
  else if quotient % 2 = 0 then quotient else quotient + 1

/-- The greatest `k` with `2 ^ k ≤ num / den`, for positive numbers. -/
def binaryPlace (num den : Nat) : Int :=
  let guess := (Nat.log2 num : Int) - (Nat.log2 den : Int)
  let fits :=
    if 0 ≤ guess then den * Nat.pow 2 guess.toNat ≤ num else den ≤ num * Nat.pow 2 (-guess).toNat
  if fits then guess else guess - 1

def leastExponent : Int := -1074

def greatestExponent : Int := 971

/-- The number nearest to a quotient with a positive denominator. -/
def ofRatio (negative : Bool) (num den : Nat) : Binary64 :=
  if num = 0 then .finite negative 0 0
  else
    let e := max (binaryPlace num den - 52) leastExponent
    let m :=
      if 0 ≤ e then nearestWhole num (den * Nat.pow 2 e.toNat)
      else nearestWhole (num * Nat.pow 2 (-e).toNat) den
    let (m, e) := if m = Nat.pow 2 53 then (Nat.pow 2 52, e + 1) else (m, e)
    if m = 0 then .finite negative 0 0
    else if greatestExponent < e then .infinite negative
    else .finite negative m e

def ofNat (n : Nat) : Binary64 := ofRatio false n 1

/-- The number nearest to `n · 10 ^ place`. From `10 ^ 310` on all is infinite, and below
`10 ^ -326` all is zero. -/
def ofDecimal (negative : Bool) (n : Nat) (place : Int) : Binary64 :=
  let size := (Nat.toDigits 10 n).length
  if n = 0 || place + size < -325 then .finite negative 0 0
  else if 310 < place + size then .infinite negative
  else if 0 ≤ place then ofRatio negative (n * Nat.pow 10 place.toNat) 1
  else ofRatio negative n (Nat.pow 10 (-place).toNat)

/-! ## Values -/

/-- `m · 2 ^ e` as a quotient. -/
def ratio (m : Nat) (e : Int) : Nat × Nat :=
  if 0 ≤ e then (m * Nat.pow 2 e.toNat, 1) else (m, Nat.pow 2 (-e).toNat)

def signed (negative : Bool) (n : Nat) : Int := if negative then -(n : Int) else n

/-- The whole number that a number is, if it is one. -/
def toInt? : Binary64 → Option Int
  | .finite negative m e =>
    let (num, den) := ratio m e
    if num % den = 0 then some (signed negative (num / den)) else none
  | _ => none

def isFinite : Binary64 → Bool
  | .finite .. => true
  | _ => false

/-! ## Arithmetic -/

/-- The quotient of two whole numbers, rounded. -/
def ofQuotient (num : Int) (den : Nat) : Binary64 := ofRatio (num < 0) num.natAbs den

def negate : Binary64 → Binary64
  | .notANumber => .notANumber
  | .infinite negative => .infinite !negative
  | .finite negative m e => .finite (!negative) m e

/-- The product, rounded. A zero times an infinity is not a number. -/
def times : Binary64 → Binary64 → Binary64
  | .notANumber, _ | _, .notANumber => .notANumber
  | .infinite a, .infinite b => .infinite (a != b)
  | .infinite a, .finite b m _ | .finite b m _, .infinite a =>
    if m = 0 then .notANumber else .infinite (a != b)
  | .finite a m e, .finite b n f =>
    let (p, q) := ratio m e
    let (r, s) := ratio n f
    ofRatio (a != b) (p * r) (q * s)

/-- The sum, rounded. Two infinities of different signs have none. A sum of zero is positive unless
both zeros are negative. -/
def plus : Binary64 → Binary64 → Binary64
  | .notANumber, _ | _, .notANumber => .notANumber
  | .infinite a, .infinite b => if a = b then .infinite a else .notANumber
  | .infinite a, .finite .. | .finite .., .infinite a => .infinite a
  | .finite a m e, .finite b n f =>
    let (p, q) := ratio m e
    let (r, s) := ratio n f
    let sum := signed a p * s + signed b r * q
    if sum = 0 then .finite (a && b) 0 0 else ofQuotient sum (q * s)

/-! ## Written form -/

/-- The greatest `k` with `10 ^ k ≤ num / den`, for positive numbers. -/
def decimalPlace (num den : Nat) : Int :=
  if den ≤ num then ((Nat.toDigits 10 (num / den)).length : Int) - 1
  else -((Nat.toDigits 10 ((den + num - 1) / num - 1)).length : Int)

/-- The two whole multiples of `10 ^ place` around a quotient, the nearer first. -/
def neighbours (num den : Nat) (place : Int) : List Nat :=
  let (num, den) :=
    if 0 ≤ place then (num, den * Nat.pow 10 place.toNat)
    else (num * Nat.pow 10 (-place).toNat, den)
  let below := num / den
  let nearest := nearestWhole num den
  [nearest, if nearest = below then below + 1 else below]

/-- The shortest `n` and place for which `n · 10 ^ place` reads back, trying some digit counts. -/
def shortestFrom (x : Binary64) (num den : Nat) (digits : Nat) : (tries : Nat) → Nat × Int
  | 0 => (0, 0)
  | tries + 1 =>
    let place := decimalPlace num den - digits + 1
    match (neighbours num den place).find? fun n => ofDecimal false n place = x with
    | some n => (n, place)
    | none => shortestFrom x num den (digits + 1) tries

/-- The digits of a positive number and the place of the last; 17 digits are always enough. -/
def shortest (m : Nat) (e : Int) : Nat × Int :=
  let (num, den) := ratio m e
  shortestFrom (.finite false m e) num den 1 17

/-- Digits with a point before the one at `point`, if the point is not far away. -/
def positional (digits : List Char) (point : Int) : List Char :=
  if point ≤ 0 then ['0', '.'] ++ List.replicate (-point).toNat '0' ++ digits
  else
    let n := point.toNat
    if n < digits.length then digits.take n ++ '.' :: digits.drop n
    else digits ++ List.replicate (n - digits.length) '0' ++ ['.', '0']

/-- One digit, the others behind a point, and the exponent of ten. -/
def scientific (digits : List Char) (exponent : Int) : List Char :=
  let fraction := match digits.drop 1 with | [] => [] | more => '.' :: more
  let size := Nat.toDigits 10 exponent.natAbs
  let padded := if size.length < 2 then '0' :: size else size
  digits.take 1 ++ fraction ++ 'e' :: (if exponent < 0 then '-' else '+') :: padded

/-- Positional from `10 ^ -4` to below `10 ^ 16`, and scientific outside. -/
def renderFinite (m : Nat) (e : Int) : List Char :=
  if m = 0 then ['0', '.', '0']
  else
    let (n, place) := shortest m e
    let all := Nat.toDigits 10 n
    let digits := (all.reverse.dropWhile (· = '0')).reverse
    let point := place + all.length
    if -4 < point && point ≤ 16 then positional digits point else scientific digits (point - 1)

def render : Binary64 → String
  | .notANumber => "nan"
  | .infinite negative => if negative then "-inf" else "inf"
  | .finite negative m e =>
    String.ofList ((if negative then ['-'] else []) ++ renderFinite m e)

example : (ofDecimal false 1 (-1)).render = "0.1" := by decide
example : (ofDecimal true 15 22).render = "-1.5e+23" := by decide
example : (ofDecimal false 5 (-324)).render = "5e-324" := by decide +kernel

end Binary64

end CrudSchema
