import CrudSchema.Text.Case
import CrudSchema.Text.Numeral
import CrudSchema.Text.PrintableTable

/-!
# Quoted text

How messages show a text so that a reader can see every character of it.

**Quotes.** Single quotes, unless the text holds a single quote and no double quote.

**Escapes.** The backslash and the quote in use are escaped with a backslash; newline, carriage
return and tab are `\n`, `\r` and `\t`; any other character that is not printable is written by
its code point, in the shortest of `\xhh`, `\uhhhh` and `\Uhhhhhhhh`. Printable characters stay.
-/

namespace CrudSchema.Text

def isPrintable (c : Char) : Bool :=
  if c.toNat < 127 then 32 ≤ c.toNat else !inRanges PrintableTable.unprintableRanges c.toNat

/-! ## Quoting -/

/-- A character by its code point. -/
def codeEscape (n : Nat) : List Char :=
  if n < 0x100 then '\\' :: 'x' :: hexDigits false 2 n
  else if n < 0x10000 then '\\' :: 'u' :: hexDigits false 4 n
  else '\\' :: 'U' :: hexDigits false 8 n

def quoteChar (quote c : Char) : List Char :=
  if c = quote || c = '\\' then ['\\', c]
  else match c with
    | '\n' => ['\\', 'n']
    | '\r' => ['\\', 'r']
    | '\t' => ['\\', 't']
    | c => if isPrintable c then [c] else codeEscape c.toNat

/-- The quotes a text is shown in. -/
def quoteFor (cs : List Char) : Char :=
  if cs.contains '\'' && !cs.contains '"' then '"' else '\''

/-- The text in quotes, with every character visible. -/
def quoted (s : String) : String :=
  let quote := quoteFor s.toList
  String.ofList (quote :: s.toList.flatMap (quoteChar quote) ++ [quote])

/-- Bytes between quotes behind the letter b. All that is not printable ASCII is escaped. -/
def quotedBytes (bytes : List UInt8) : String :=
  let cs := bytes.map fun b => Char.ofNat b.toNat
  let quote := quoteFor cs
  let shown := fun c : Char => if c.toNat < 127 then quoteChar quote c else codeEscape c.toNat
  String.ofList ('b' :: quote :: cs.flatMap shown ++ [quote])

/-- A list of texts, each in quotes. -/
def quotedList (l : List String) : String :=
  "[" ++ ", ".intercalate (l.map quoted) ++ "]"

example : quotedList ["it's", "q\""] = "[\"it's\", 'q\"']" := by decide
example : quoted "a\u200bb\x7f" = "'a\\u200bb\\x7f'" := by decide +kernel

end CrudSchema.Text
