import CrudSchema.Text.Case
import CrudSchema.Text.Split

/-!
# Blank characters and line ends

**Blanks** (`isBlank`). The white space of Unicode and the four information separators.
`isSpace` is the white space alone.

**Line ends** (`lines`, `unifyNewlines`). A line ends at a line feed, at a carriage return, or
at the two in that order, which count as one end.
-/

namespace CrudSchema.Text

/-! ## Blanks -/

/-- The ranges of white space as Unicode lists it. -/
def spaceRanges : List (Nat × Nat) :=
  [(0x09, 0x0D), (0x20, 0x20), (0x85, 0x85), (0xA0, 0xA0), (0x1680, 0x1680), (0x2000, 0x200A),
    (0x2028, 0x2029), (0x202F, 0x202F), (0x205F, 0x205F), (0x3000, 0x3000)]

def isSpace (c : Char) : Bool := inRanges spaceRanges c.toNat

/-- White space, and the separators U+001C to U+001F. -/
def isBlank (c : Char) : Bool := isSpace c || inRanges [(0x1C, 0x1F)] c.toNat

/-- Drop the characters at the end that satisfy `p`. -/
def dropEndWhile (p : Char → Bool) (cs : List Char) : List Char :=
  (cs.reverse.dropWhile p).reverse

/-- The characters without the white space at both ends. -/
def trimSpace (cs : List Char) : List Char := dropEndWhile isSpace (cs.dropWhile isSpace)

/-! ## Line ends -/

/-- Write every line end as a line feed. -/
def unifyNewlines : List Char → List Char
  | [] => []
  | '\r' :: '\n' :: rest => '\n' :: unifyNewlines rest
  | '\r' :: rest => '\n' :: unifyNewlines rest
  | c :: rest => c :: unifyNewlines rest

/-- The lines of a text, without their ends. -/
def lines (cs : List Char) : List (List Char) := split '\n' (unifyNewlines cs)

example : lines "a\r\nb\rc\n".toList = ["a".toList, "b".toList, "c".toList, []] := by decide

end CrudSchema.Text
