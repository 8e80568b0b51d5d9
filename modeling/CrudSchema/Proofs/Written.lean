import CrudSchema.Proofs.Numerals
import CrudSchema.Proofs.PlainScalars
import CrudSchema.Yaml.Layout

/-!
# Written documents

**Tokens** (`documentTokens`). A document is a mapping. Its entries are keys with values, and the
items of a list stand at the column of its key, so they begin no block.

**Leaves** (`Leaf.write_cases`). A leaf is written plain or between quotes of a kind. Numbers and
truth values need no quotes; nor do keys (`IsKey`).

**Characters** (`isWritten_print`). What is outside of printable ASCII is escaped, so a document
holds nothing else but line feeds.
-/

namespace CrudSchema.Yaml

open Layout

/-! ## Tokens -/

/-- The text of a leaf as it is read. -/
def Leaf.content : Leaf → String
  | .int n => toString n
  | .bool b => if b then "true" else "false"
  | .text s => s

/-- A leaf is written without quotes. -/
def Leaf.isPlain : Leaf → Bool
  | .text s => styleOf s = .plain
  | _ => true

def Leaf.token (l : Leaf) : Token := .scalar l.content l.isPlain

def Entry.tokens : Entry → List Token
  | .leaf l => [l.token]
  | .list items => items.flatMap fun l => [.item, l.token]

def entryTokens (key : String) (e : Entry) : List Token :=
  [.key, .scalar key true, .value] ++ e.tokens

def documentTokens (entries : List (String × Entry)) : List Token :=
  .mappingStart :: entries.flatMap (fun (key, e) => entryTokens key e) ++ [.blockEnd, .streamEnd]

/-! ## Keys -/

def isKeyChar (c : Char) : Bool := 'a' ≤ c && c ≤ 'z' || c = '_'

/-- A word that needs no quotes as a key. -/
structure IsKey (key : String) : Prop where
  ne_empty : key.toList ≠ []
  letters : ∀ c ∈ key.toList, isKeyChar c = true
  short : key.toList.length ≤ longestKey
  text : Tag.ofPlain key = .text

/-- What is told apart from every indicator is none. -/
theorem isIndicator_eq_false {p : Char → Bool} {c : Char} (h : p c = true)
    (hp : ("-?:,[]\x7b\x7d#&*!|>'\"%@\x60".toList.all fun d => !p d) = true) :
    isIndicator c = false := by
  rw [Bool.eq_false_iff]
  intro hmark
  have hnot := List.all_eq_true.1 hp c (List.contains_iff_mem.1 hmark)
  rw [h] at hnot
  cases hnot

theorem ne_of_isIndicator {c d : Char} (hc : isIndicator c = false) (hd : isIndicator d = true) :
    c ≠ d := by
  rintro rfl
  rw [hd] at hc
  cases hc

theorem of_isKeyChar {c : Char} (h : isKeyChar c = true) :
    isPlainChar c = true ∧ isGap c = false ∧ isIndicator c = false ∧ c ≠ '.' := by
  have hplain : isPlainChar c = true := by
    simp only [isKeyChar, Bool.or_eq_true, Bool.and_eq_true, decide_eq_true_eq] at h
    rcases h with ⟨ha, hz⟩ | rfl
    · have hlow := UInt32.le_iff_toNat_le.1 ha
      have hhigh := UInt32.le_iff_toNat_le.1 hz
      simp only [isPlainChar, Bool.and_eq_true, decide_eq_true_eq]
      exact ⟨Nat.le_trans (by decide) hlow, Nat.le_trans hhigh (by decide)⟩
    · decide
  refine ⟨hplain, isGap_eq_false hplain ?_, isIndicator_eq_false h (by decide), ?_⟩
  · rintro rfl
    exact absurd h (by decide)
  · rintro rfl
    exact absurd h (by decide)

theorem not_blocked_of_not_isIndicator {c : Char} (h : isIndicator c = false) :
    "#,[]\x7b\x7d&*!|>'\"%@\x60".toList.contains c = false ∧ "?:-".toList.contains c = false := by
  have hmarks : ∀ d ∈ "#,[]\x7b\x7d&*!|>'\"%@\x60".toList ++ "?:-".toList,
      isIndicator d = true :=
    forall_mem_of_all (by decide)
  simp only [Bool.eq_false_iff]
  constructor
  · intro hc
    exact absurd (hmarks c (List.mem_append_left _ (List.contains_iff_mem.1 hc))) (by simp [h])
  · intro hc
    exact absurd (hmarks c (List.mem_append_right _ (List.contains_iff_mem.1 hc))) (by simp [h])

/-- The first letter of a key begins no mark. -/
theorem IsKey.exists_cons {key : String} (h : IsKey key) :
    ∃ c cs, key.toList = c :: cs ∧ isGap c = false ∧ isIndicator c = false ∧ c ≠ '.' := by
  obtain ⟨c, cs, hcs⟩ := List.exists_cons_of_ne_nil h.ne_empty
  exact ⟨c, cs, hcs, (of_isKeyChar (h.letters c (hcs ▸ List.mem_cons_self))).2⟩

/-! ## Written leaves -/

theorem writePlain_eq_self {column : Nat} {before : Option Char} {cs : List Char}
    (h : ∀ c ∈ cs, c ≠ ' ') : writePlain column before cs = cs := by
  obtain ⟨column', before', hwrite⟩ := writePlain_chunk column before [] h
  rw [List.append_nil] at hwrite
  rw [hwrite, writePlain, List.append_nil]

theorem hasPair_eq_false {p : Char → Char → Bool} {cs : List Char}
    (h : ∀ a ∈ cs, ∀ b ∈ cs, p a b = false) : hasPair p cs = false := by
  induction cs with
  | nil => rfl
  | cons a cs ih =>
    have hcs : hasPair p cs = false := ih fun a ha b hb =>
      h a (List.mem_cons_of_mem _ ha) b (List.mem_cons_of_mem _ hb)
    cases cs with
    | nil => rfl
    | cons b cs =>
      rw [hasPair, h a List.mem_cons_self b (List.mem_cons_of_mem _ List.mem_cons_self), hcs]
      rfl

theorem of_isDigit {c : Char} (h : c.isDigit = true) :
    isPlainChar c = true ∧ isGap c = false ∧ isIndicator c = false ∧ c ≠ ' ' := by
  have hplain : isPlainChar c = true := by
    simp only [Char.isDigit, Bool.and_eq_true, decide_eq_true_eq] at h
    have hlow := UInt32.le_iff_toNat_le.1 h.1
    have hhigh := UInt32.le_iff_toNat_le.1 h.2
    simp only [isPlainChar, Bool.and_eq_true, decide_eq_true_eq]
    exact ⟨Nat.le_trans (by decide) hlow, Nat.le_trans hhigh (by decide)⟩
  have hblank : c ≠ ' ' := by
    rintro rfl
    exact absurd h (by decide)
  exact ⟨hplain, isGap_eq_false hplain hblank, isIndicator_eq_false h (by decide), hblank⟩

/-- Digits behind a sign or without one need no quotes. -/
theorem allowsPlain_of_digits {sign digits : List Char} (hsign : sign = [] ∨ sign = ['-'])
    (hne : digits ≠ []) (hdigits : ∀ c ∈ digits, c.isDigit = true) :
    allowsPlain (sign ++ digits) = true ∧ ∀ c ∈ sign ++ digits, c ≠ ' ' := by
  have hchars : ∀ c ∈ sign ++ digits,
      isPlainChar c = true ∧ isGap c = false ∧ c ≠ ' ' ∧ c ≠ ':' := by
    intro c hc
    rcases List.mem_append.1 hc with hc | hc
    · rcases hsign with rfl | rfl
      · cases hc
      · rw [List.mem_singleton.1 hc]
        decide
    · obtain ⟨hplain, hgap, hmark, hblank⟩ := of_isDigit (hdigits c hc)
      exact ⟨hplain, hgap, hblank, ne_of_isIndicator hmark (by decide)⟩
  refine ⟨?_, fun c hc => (hchars c hc).2.2.1⟩
  obtain ⟨d, ds, rfl⟩ := List.exists_cons_of_ne_nil hne
  obtain ⟨-, hgap, hmark, -⟩ := of_isDigit (hdigits d List.mem_cons_self)
  have hpairs : hasPair (fun a b => a = ':' && isGap b || isGap a && b = '#') (sign ++ d :: ds) =
      false := by
    refine hasPair_eq_false fun a ha b _ => ?_
    obtain ⟨-, hgap, -, hcolon⟩ := hchars a ha
    simp [hgap, hcolon]
  have hlast : ∀ c, (sign ++ d :: ds).getLast? = some c → c ≠ ' ' ∧ c ≠ ':' := fun c hc =>
    (hchars c (List.mem_of_mem_getLast? hc)).2.2
  have hstart : isBlockedStart (sign ++ d :: ds) = false := by
    rcases hsign with rfl | rfl
    · rw [List.nil_append, isBlockedStart, (not_blocked_of_not_isIndicator hmark).1,
        (not_blocked_of_not_isIndicator hmark).2]
      rfl
    · simp [isBlockedStart, hgap]
  have hmarks : (sign ++ d :: ds).take 3 ≠ ['-', '-', '-'] ∧
      (sign ++ d :: ds).take 3 ≠ ['.', '.', '.'] := by
    have hd : d ≠ '-' ∧ d ≠ '.' := by
      constructor
      all_goals
        rintro rfl
        exact absurd (hdigits _ List.mem_cons_self) (by decide)
    rcases hsign with rfl | rfl
    · simp [hd]
    · simp [hd]
  have hhead : (sign ++ d :: ds).head? ≠ some ' ' := fun hhead =>
    (hchars _ (List.mem_of_mem_head? hhead)).2.2.1 rfl
  rw [allowsPlain, hstart, hasBlockedPair, hpairs]
  simp only [Bool.and_eq_true, Bool.not_eq_true', decide_eq_true_eq, Bool.or_eq_false_iff,
    decide_eq_false_iff_not, List.all_eq_true, Bool.false_or]
  exact ⟨⟨⟨⟨⟨fun c hc => (hchars c hc).1, hhead⟩, fun hc => (hlast _ hc).1 rfl⟩, trivial⟩,
    fun hc => (hlast _ hc).2 rfl⟩, hmarks⟩

theorem allowsPlain_toString (n : Int) :
    allowsPlain (toString n).toList = true ∧ ∀ c ∈ (toString n).toList, c ≠ ' ' := by
  rw [toList_toString_int]
  refine allowsPlain_of_digits ?_ Nat.toDigits_ne_nil
    (fun c => Nat.isDigit_of_mem_toDigits (by decide) (by decide))
  split
  · exact .inl rfl
  · exact .inr rfl

/-- How a leaf is written. -/
theorem Leaf.write_cases (l : Leaf) (column : Nat) :
    l.isPlain = true ∧ allowsPlain l.content.toList = true ∧
        l.write column = writePlain column none l.content.toList ∨
      l.isPlain = false ∧ allowsSingle l.content.toList = true ∧
        l.write column = '\'' :: writeSingle (column + 1) none l.content.toList ++ ['\''] ∨
      l.isPlain = false ∧
        l.write column = '"' :: writeDouble (column + 1) true false l.content.toList ++ ['"'] := by
  cases l with
  | int n =>
    obtain ⟨hallows, hblank⟩ := allowsPlain_toString n
    exact .inl ⟨rfl, hallows, (writePlain_eq_self hblank).symm⟩
  | bool b =>
    refine .inl ⟨rfl, ?_⟩
    have hblank : ∀ c ∈ (Leaf.content (.bool b)).toList, c ≠ ' ' := by
      apply forall_mem_of_all
      cases b <;> decide
    refine ⟨by cases b <;> decide, ?_⟩
    rw [writePlain_eq_self hblank]
    rfl
  | text s =>
    rw [Leaf.isPlain, Leaf.content, Leaf.write, writeText]
    cases hstyle : styleOf s with
    | plain =>
      refine .inl ⟨rfl, ?_, rfl⟩
      rw [styleOf] at hstyle
      split at hstyle
      next hallows => exact (Bool.and_eq_true_iff.1 hallows).1
      next =>
        split at hstyle
        · cases hstyle
        · cases hstyle
    | single =>
      refine .inr (.inl ⟨rfl, ?_, rfl⟩)
      rw [styleOf] at hstyle
      split at hstyle
      · cases hstyle
      next =>
        split at hstyle
        next hallows => exact hallows
        next => cases hstyle
    | double => exact .inr (.inr ⟨rfl, rfl⟩)

theorem Leaf.exists_write (leaf : Leaf) (width : Nat) :
    ∃ ch w, leaf.write width = ch :: w ∧ isGap ch = false ∧ ch ≠ '#' := by
  obtain ⟨-, hallows, hwrite⟩ | ⟨-, -, hwrite⟩ | ⟨-, hwrite⟩ := leaf.write_cases width
  · obtain ⟨ch, rest, hcs, hblank, hgap, hblocked, -⟩ := exists_of_allowsPlain hallows
    rw [hcs, writePlain_of_ne hblank] at hwrite
    refine ⟨ch, _, hwrite, hgap, ?_⟩
    rintro rfl
    exact absurd hblocked (by decide)
  · exact ⟨_, _, hwrite, by decide, by decide⟩
  · exact ⟨_, _, hwrite, by decide, by decide⟩

/-! ## Characters of a document -/

/-- A document is written in printable ASCII and line feeds. -/
def IsWritten (cs : List Char) : Prop := ∀ c ∈ cs, isPlainChar c = true ∨ c = '\n'

namespace IsWritten

variable {cs cs' : List Char}

theorem append (h : IsWritten cs) (h' : IsWritten cs') : IsWritten (cs ++ cs') := fun c hc =>
  (List.mem_append.1 hc).elim (h c) (h' c)

theorem cons {c : Char} (hc : isPlainChar c = true ∨ c = '\n') (h : IsWritten cs) :
    IsWritten (c :: cs) := List.forall_mem_cons.2 ⟨hc, h⟩

theorem of_all (h : cs.all (fun c => isPlainChar c || c = '\n') = true) : IsWritten cs := by
  simpa [IsWritten] using h

theorem writePlain {column : Nat} {before : Option Char} (h : IsWritten cs) :
    IsWritten (writePlain column before cs) := by
  induction cs generalizing column before with
  | nil => exact h
  | cons c cs ih =>
    obtain ⟨hc, hcs⟩ := List.forall_mem_cons.1 h
    have hbroken : IsWritten ('\n' :: continuation) := of_all (by decide)
    rw [Yaml.writePlain]
    split
    · exact hbroken.append (ih hcs)
    · exact .cons hc (ih hcs)

theorem writeSingle {column : Nat} {before : Option Char} (h : IsWritten cs) :
    IsWritten (writeSingle column before cs) := by
  induction cs generalizing column before with
  | nil => exact h
  | cons c cs ih =>
    obtain ⟨hc, hcs⟩ := List.forall_mem_cons.1 h
    have hfirst : IsWritten (if before = some '\n' then [] else ['\n']) := by
      split
      · exact of_all (by decide)
      · exact of_all (by decide)
    have hbroken : IsWritten ('\n' :: continuation) := of_all (by decide)
    rw [Yaml.writeSingle]
    split
    · dsimp only
      split
      · exact .append hfirst (.cons (.inr rfl) (ih hcs))
      · exact .append (.append hfirst hbroken) (ih hcs)
    · split
      · exact .cons (.inl (by decide)) (.cons (.inl (by decide)) (ih hcs))
      · dsimp only
        split
        · exact .append hbroken (ih hcs)
        · exact .cons hc (ih hcs)

theorem hexDigits (width n : Nat) : IsWritten (Text.hexDigits true width n) := by
  have hdigit : ∀ d < 16, isPlainChar (Text.hexDigit true d) = true := by decide
  induction width generalizing n with
  | zero => exact of_all rfl
  | succ w ih =>
    rw [Text.hexDigits]
    exact .append (ih _) (.cons (.inl (hdigit _ (Nat.mod_lt _ (by decide)))) (of_all rfl))

theorem escapeOf (ch : Char) : IsWritten (escapeOf ch) := by
  have hletters : ∀ p ∈ escapeLetters, isPlainChar p.2 = true := by decide
  rw [Yaml.escapeOf]
  split
  next letter hlookup =>
    obtain ⟨l₁, l₂, hsplit, -⟩ := List.lookup_eq_some_iff.1 hlookup
    have hletter := hletters (ch, letter) (hsplit ▸ List.mem_append_right l₁ List.mem_cons_self)
    exact .cons (.inl (by decide)) (.cons (.inl hletter) (of_all rfl))
  next =>
    have hmark : ∀ c width, isPlainChar c = true →
        IsWritten ('\\' :: c :: Text.hexDigits true width ch.toNat) := fun c width hc =>
      .cons (.inl (by decide)) (.cons (.inl hc) (hexDigits width _))
    split
    · exact hmark 'x' 2 (by decide)
    · split
      · exact hmark 'u' 4 (by decide)
      · exact hmark 'U' 8 (by decide)

theorem joinedLine (next : Option Char) : IsWritten (joinedLine next) := by
  rw [Yaml.joinedLine]
  split
  · exact of_all (by decide)
  · exact of_all (by decide)

theorem writeDouble (column : Nat) (first afterEscape : Bool) (cs : List Char) :
    IsWritten (writeDouble column first afterEscape cs) := by
  induction cs generalizing column first afterEscape with
  | nil => exact of_all rfl
  | cons c cs ih =>
    cases h : isEscaped c with
    | true =>
      obtain ⟨column', hwrite | ⟨-, hwrite⟩⟩ :=
        writeDouble_escaped column first afterEscape cs h
      · rw [hwrite]
        exact (escapeOf c).append (ih _ _ _)
      · rw [hwrite]
        exact (escapeOf c).append ((joinedLine _).append (ih _ _ _))
    | false =>
      have hc := (of_isEscaped_eq_false h).1
      obtain ⟨column', hwrite | hwrite⟩ := writeDouble_char column first afterEscape cs h
      · rw [hwrite]
        exact .cons (.inl hc) (ih _ _ _)
      · rw [hwrite]
        exact (joinedLine _).append (.cons (.inl hc) (ih _ _ _))

end IsWritten

theorem isWritten_leaf (l : Leaf) (width : Nat) : IsWritten (l.write width) := by
  obtain ⟨-, hallows, hwrite⟩ | ⟨-, hallows, hwrite⟩ | ⟨-, hwrite⟩ := l.write_cases width
  · rw [hwrite]
    refine .writePlain fun c hc => .inl ?_
    exact (plainTail_of_allowsPlain hallows).plain c hc
  · rw [hwrite]
    have hall := (Bool.and_eq_true_iff.1 hallows).1
    exact .append (.cons (.inl (by decide)) (.writeSingle (.of_all hall))) (.of_all (by decide))
  · rw [hwrite]
    exact .append (.cons (.inl (by decide)) (IsWritten.writeDouble _ _ _ _)) (.of_all (by decide))

theorem isWritten_entry {key : String} (hkey : IsKey key) (e : Entry) :
    IsWritten (writeEntry key e) := by
  have hletters : IsWritten key.toList := fun c hc => .inl (of_isKeyChar (hkey.letters c hc)).1
  have hend : IsWritten ['\n'] := .of_all (by decide)
  cases e with
  | leaf l =>
    rw [writeEntry]
    refine .append (hletters.append ?_) hend
    exact .cons (.inl (by decide)) (.cons (.inl (by decide)) (isWritten_leaf l _))
  | list items =>
    rw [writeEntry]
    refine hletters.append (.cons (.inl (by decide)) (.cons (.inr rfl) fun c hc => ?_))
    obtain ⟨l, -, hl⟩ := List.mem_flatMap.1 hc
    have hitem : IsWritten ('-' :: ' ' :: l.write 2) :=
      .cons (.inl (by decide)) (.cons (.inl (by decide)) (isWritten_leaf l _))
    exact hitem.append hend c hl

theorem isWritten_print {entries : List (String × Entry)} (hkeys : ∀ e ∈ entries, IsKey e.1) :
    IsWritten (print entries).toList := by
  rw [print, String.toList_ofList]
  intro c hc
  obtain ⟨⟨key, e⟩, hmem, hc⟩ := List.mem_flatMap.1 hc
  exact isWritten_entry (hkeys _ hmem) e c hc

end CrudSchema.Yaml
