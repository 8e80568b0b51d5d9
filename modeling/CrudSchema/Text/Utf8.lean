import CrudSchema.Text.Blank
import CrudSchema.Text.Quoted

/-!
# Bytes as text

**Reading** (`decode`). Bytes that are UTF-8 are the text they encode. Others are refused with
the first place where they go wrong.

**Where they go wrong** (`Malformed`, `firstFault`). Either a byte that starts no character, or
a character cut short. A character is cut short by a byte that cannot continue it, and then the
bytes up to that one are at fault, or by the end, and then all the remaining bytes are.

**Line ends** (`decodeLines`). A file read as text has every line end written as a line feed.
-/

namespace CrudSchema.Text

inductive Malformed.Reason where
  | start
  | continuation
  | ending
  deriving DecidableEq, Repr

/-- The bytes from `first` to before `stop` are at fault; `byte` is the first of them. -/
structure Malformed where
  first : Nat
  stop : Nat
  byte : Nat
  reason : Malformed.Reason
  deriving DecidableEq, Repr

def Malformed.Reason.text : Malformed.Reason → String
  | .start => "invalid start byte"
  | .continuation => "invalid continuation byte"
  | .ending => "unexpected end of data"

def Malformed.message (m : Malformed) : String :=
  let place :=
    if m.stop = m.first + 1 then
      "byte 0x" ++ String.ofList (hexDigits false 2 m.byte) ++ " in position " ++ toString m.first
    else "bytes in position " ++ toString m.first ++ "-" ++ toString (m.stop - 1)
  "'utf-8' codec can't decode " ++ place ++ ": " ++ m.reason.text

/-! ## Finding the fault -/

/-- The bytes that may come second after a first byte; any continuation byte may come later. -/
def secondRange (b : Nat) : Nat × Nat :=
  if b = 0xE0 then (0xA0, 0xBF) else if b = 0xED then (0x80, 0x9F)
  else if b = 0xF0 then (0x90, 0xBF) else if b = 0xF4 then (0x80, 0x8F) else (0x80, 0xBF)

/-- How many bytes follow a first byte, if it starts a character. -/
def followers (b : Nat) : Option Nat :=
  if b < 0x80 then some 0
  else if 0xC2 ≤ b && b ≤ 0xDF then some 1
  else if 0xE0 ≤ b && b ≤ 0xEF then some 2
  else if 0xF0 ≤ b && b ≤ 0xF4 then some 3
  else none

/-- Where the search stands: between characters, or inside one that began at `first` with
`byte`, with `owed` bytes to come, the next of them from `low` to `high`. -/
inductive Search where
  | between
  | inside (first byte owed low high : Nat)

/-- The first fault at or after a position. -/
def firstFault (search : Search) (position : Nat) : List UInt8 → Option Malformed
  | [] =>
    match search with
    | .between => none
    | .inside first byte _ _ _ => some ⟨first, position, byte, .ending⟩
  | b :: rest =>
    let n := b.toNat
    match search with
    | .between =>
      match followers n with
      | none => some ⟨position, position + 1, n, .start⟩
      | some 0 => firstFault .between (position + 1) rest
      | some (k + 1) =>
        let (low, high) := secondRange n
        firstFault (.inside position n (k + 1) low high) (position + 1) rest
    | .inside first byte owed low high =>
      if low ≤ n && n ≤ high then
        if owed ≤ 1 then firstFault .between (position + 1) rest
        else firstFault (.inside first byte (owed - 1) 0x80 0xBF) (position + 1) rest
      else some ⟨first, position, byte, .continuation⟩

/-! ## Reading -/

/-- The text that bytes encode. -/
def decode (bytes : ByteArray) : Except Malformed String :=
  match String.fromUTF8? bytes with
  | some s => .ok s
  | none => .error ((firstFault .between 0 bytes.toList).getD ⟨0, bytes.size, 0, .ending⟩)

/-- The text that bytes encode, with every line end written as a line feed. -/
def decodeLines (bytes : ByteArray) : Except Malformed String :=
  (decode bytes).map fun s => String.ofList (unifyNewlines s.toList)

example : (firstFault .between 0 [0x74, 0xFF, 0xFE]).map Malformed.message =
    some "'utf-8' codec can't decode byte 0xff in position 1: invalid start byte" := by
  decide

end CrudSchema.Text
