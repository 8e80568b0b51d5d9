/-!
# Bytes in base 64

**Reading** (`decode?`). Every character of the alphabet stands for six bits, and four of them for
three bytes. Characters outside of the alphabet are passed over. A group of four may be cut short
after two or three characters, and then as many padding characters as are missing end the text;
what follows them is not read.
-/

namespace CrudSchema.Text.Base64

/-- The six bits that a character stands for. -/
def value? (c : Char) : Option Nat :=
  if c.isUpper then some (c.toNat - 65)
  else if c.isLower then some (c.toNat - 71)
  else if c.isDigit then some (c.toNat + 4)
  else if c = '+' then some 62
  else if c = '/' then some 63
  else none

/-- The byte that a character completes after `count` characters of its group with `bits` left of
them, and the bits it leaves over. -/
def completed (count bits value : Nat) : List UInt8 × Nat :=
  match count with
  | 0 => ([], value)
  | 1 => ([UInt8.ofNat (bits * 4 + value / 16)], value % 16)
  | 2 => ([UInt8.ofNat (bits * 16 + value / 4)], value % 4)
  | _ => ([UInt8.ofNat (bits * 64 + value)], 0)

/-- The bytes of what is left of a text, after `count` characters of a group and some padding. -/
def decodeFrom (count bits padding : Nat) : List Char → Option (List UInt8)
  | [] => if count = 0 then some [] else none
  | '=' :: rest =>
    if count < 2 then decodeFrom count bits padding rest
    else if 4 ≤ count + padding + 1 then some []
    else decodeFrom count bits (padding + 1) rest
  | c :: rest =>
    match value? c with
    | none => decodeFrom count bits padding rest
    | some v =>
      let (bytes, bits) := completed count bits v
      (decodeFrom ((count + 1) % 4) bits 0 rest).map (bytes ++ ·)

/-- The bytes that a text stands for. -/
def decode? (cs : List Char) : Option (List UInt8) := decodeFrom 0 0 0 cs

example : decode? "aGk=".toList = some [104, 105] := by decide
example : decode? "aG k".toList = none := by decide

end CrudSchema.Text.Base64
