/-!
# Numbers in digits

**Reading.** The number that decimal digits make (`decimalNumber`), and the one that hexadecimal
digits of either case make, if they are such digits (`hexNumber?`).

**Writing.** The last hexadecimal digits of a number, so many of them (`hexDigits`).
-/

namespace CrudSchema.Text

/-! ## Reading -/

/-- The number that decimal digits make. -/
def decimalNumber (digits : List Char) : Nat :=
  digits.foldl (fun n c => 10 * n + (c.toNat - 48)) 0

def hexValue? (c : Char) : Option Nat :=
  if c.isDigit then some (c.toNat - 48)
  else if 'a' ≤ c && c ≤ 'f' then some (c.toNat - 87)
  else if 'A' ≤ c && c ≤ 'F' then some (c.toNat - 55)
  else none

/-- The number that hexadecimal digits make behind the digits of a number. -/
def hexNumber? (n : Nat) : List Char → Option Nat
  | [] => some n
  | c :: rest => (hexValue? c).bind fun d => hexNumber? (16 * n + d) rest

/-! ## Writing -/

def hexDigit (upper : Bool) (n : Nat) : Char :=
  if n < 10 then Char.ofNat (48 + n) else Char.ofNat ((if upper then 55 else 87) + n)

/-- The last `width` hexadecimal digits of a number. -/
def hexDigits (upper : Bool) (width n : Nat) : List Char :=
  match width with
  | 0 => []
  | w + 1 => hexDigits upper w (n / 16) ++ [hexDigit upper (n % 16)]

example : hexNumber? 0 (hexDigits true 4 0x1F600) = some 0xF600 := by decide

end CrudSchema.Text
