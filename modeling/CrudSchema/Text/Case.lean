import CrudSchema.Text.CaseTable

/-!
# Upper and lower case

**Characters** (`upperChar`, `lowerChar`). The full mappings: a character may become several,
as `ß` becomes `SS`.

**Words** (`upper`, `lower`). Character by character, but for one rule that looks around: a
capital sigma that ends a word becomes `ς`, any other becomes `σ`. It ends a word when, past
the ignorable characters, a cased character stands before it and none stands after.

**First letters** (`upperFirst`, `lowerFirst`). Only the first character changes.
-/

namespace CrudSchema.Text

open CaseTable

/-! ## Tables -/

def inRanges (ranges : List (Nat × Nat)) (n : Nat) : Bool :=
  ranges.any fun r => r.1 ≤ n && n ≤ r.2

/-- The image of a code point under the first run that covers it. -/
def runImage (runs : List (Nat × Nat × Nat × Nat)) (n : Nat) : Option Nat :=
  let covers (first last stride : Nat) : Bool := first ≤ n && n ≤ last && (n - first) % stride == 0
  (runs.find? fun (first, last, stride, _) => covers first last stride).map
    fun (first, _, _, image) => image + (n - first)

/-- The mapping of one character: an expansion, else a run, else itself. -/
def mapChar (expansions : List (Nat × List Nat)) (runs : List (Nat × Nat × Nat × Nat)) (c : Char) :
    List Char :=
  match expansions.lookup c.toNat with
  | some image => image.map Char.ofNat
  | none =>
    match runImage runs c.toNat with
    | some image => [Char.ofNat image]
    | none => [c]

/-! ## Characters -/

def upperChar (c : Char) : List Char :=
  if c.toNat < 128 then [c.toUpper] else mapChar upperExpansions upperRuns c

def lowerChar (c : Char) : List Char :=
  if c.toNat < 128 then [c.toLower] else mapChar lowerExpansions lowerRuns c

/-- Neither letter nor gap: the rule for sigma looks past it. -/
def isIgnorable (c : Char) : Bool := inRanges ignorableRanges c.toNat

def isCased (c : Char) : Bool := inRanges casedRanges c.toNat

/-- The nearest character that is not ignorable has case. -/
def nearestCased (cs : List Char) : Bool :=
  match cs.dropWhile isIgnorable with
  | c :: _ => isCased c
  | [] => false

/-! ## Words -/

/-- Lower case of a text that stands after `before`, whose nearest character comes first. -/
def lowerAfter (before : List Char) : List Char → List Char
  | [] => []
  | c :: rest =>
    (if c = 'Σ' && nearestCased before && !nearestCased rest then ['ς'] else lowerChar c) ++
      lowerAfter (c :: before) rest

def lower (s : String) : String := String.ofList (lowerAfter [] s.toList)

def upper (s : String) : String := String.ofList (s.toList.flatMap upperChar)

/-! ## First letters -/

def upperFirst (s : String) : String :=
  match s.toList with
  | [] => s
  | c :: rest => String.ofList (upperChar c ++ rest)

def lowerFirst (s : String) : String :=
  match s.toList with
  | [] => s
  | c :: rest => String.ofList (lowerChar c ++ rest)

example : upper "straße" = "STRASSE" := by decide
example : lower "ΟΔΟΣ ΣΑ" = "οδος σα" := by decide +kernel
example : lowerFirst "OrderItem" = "orderItem" := by decide

end CrudSchema.Text
