import CrudSchema.Proofs.Lexing
import CrudSchema.Schema.Printer

/-!
# Descriptions are read as one token

Whatever a description says, what is written for it is one string token, and what stands behind it
is read as if it stood alone (`Lexes.described`).

**Block strings.** The escapes leave no three quotes inside the text, and none that the closing
quotes could complete, as long as the text does not end in a quote or a backslash (`EndsPlain`).
The writer puts such an end on a line of its own. Indentation comes after line feeds only, so it
moves past the escapes.

**Strings on one line.** Each character is read back from its escape, one at a time. There is no
line feed among the escapes, so no indentation gets in.
-/

namespace CrudSchema.Sdl

/-! ## Block strings -/

/-- The text does not end in a quote or a backslash, which would run into the closing quotes. -/
def EndsPlain (cs : List Char) : Prop := ∀ c, cs.getLast? = some c → c ≠ '"' ∧ c ≠ '\\'

theorem EndsPlain.tail {c : Char} {cs : List Char} (h : EndsPlain (c :: cs)) (hne : cs ≠ []) :
    EndsPlain cs := by
  intro d hd
  refine h d ?_
  rwa [List.getLast?_cons_of_ne_nil hne]

theorem endsPlain_append {cs more : List Char} (hne : more ≠ [])
    (h : ∀ c ∈ more, c ≠ '"' ∧ c ≠ '\\') : EndsPlain (cs ++ more) := by
  intro c hc
  rw [List.getLast?_append_of_ne_nil _ hne] at hc
  exact h c (List.mem_of_getLast? hc)

namespace BlockString

/-- The text begins with three quotes. -/
def Opens (cs : List Char) : Prop := ∃ rest, cs = '"' :: '"' :: '"' :: rest

theorem escapeQuotes_cons {c : Char} {cs : List Char} (h : ¬ Opens (c :: cs)) :
    escapeQuotes (c :: cs) = c :: escapeQuotes cs := by
  rw [escapeQuotes]
  rintro rest rfl rfl
  exact h ⟨rest, rfl⟩

theorem not_opens_cons {c : Char} (hc : c ≠ '"') (cs : List Char) : ¬ Opens (c :: cs) := by
  rintro ⟨rest, heq⟩
  exact hc (List.cons.inj heq).1

theorem not_opens_of_not_match {c : Char} {cs : List Char}
    (h : ∀ rest, c = '"' → cs = '"' :: '"' :: rest → False) : ¬ Opens (c :: cs) := by
  rintro ⟨rest, heq⟩
  obtain ⟨hc, hcs⟩ := List.cons.inj heq
  exact h rest hc hcs

theorem escapeQuotes_append {plain : List Char} (h : ∀ c ∈ plain, c ≠ '"') (cs : List Char) :
    escapeQuotes (plain ++ cs) = plain ++ escapeQuotes cs := by
  induction plain with
  | nil => rfl
  | cons c more ih =>
    obtain ⟨hc, hmore⟩ := List.forall_mem_cons.1 h
    rw [List.cons_append, escapeQuotes_cons (not_opens_cons hc _), ih hmore, List.cons_append]

/-- A line feed is no quote, so it does not complete three of them. -/
theorem Opens.of_append {cs more : List Char} (h : Opens (cs ++ '\n' :: more)) : Opens cs := by
  obtain ⟨rest, heq⟩ := h
  match cs, heq with
  | [], heq => simp at heq
  | [_], heq => simp at heq
  | [_, _], heq => simp at heq
  | c :: d :: e :: tail, heq =>
    simp only [List.cons_append, List.cons.injEq] at heq
    obtain ⟨rfl, rfl, rfl, -⟩ := heq
    exact ⟨tail, rfl⟩

theorem escapeQuotes_append_newline (cs : List Char) :
    escapeQuotes (cs ++ ['\n']) = escapeQuotes cs ++ ['\n'] := by
  induction cs using escapeQuotes.induct with
  | case1 rest ih => simp only [List.cons_append, escapeQuotes, ih]
  | case2 c rest h ih =>
    have hopens : ¬ Opens (c :: rest) := not_opens_of_not_match h
    rw [escapeQuotes_cons hopens, List.cons_append, List.cons_append, ← ih]
    exact escapeQuotes_cons fun h => hopens h.of_append
  | case3 => rfl

/-- A quote at the front of escaped text is one at the front of the text. -/
theorem front_escapeQuotes {c : Char} {cs more rest : List Char}
    (h : escapeQuotes (c :: cs) ++ more = '"' :: rest) :
    c = '"' ∧ escapeQuotes cs ++ more = rest := by
  by_cases hopens : Opens (c :: cs)
  · obtain ⟨tail, htail⟩ := hopens
    rw [htail, escapeQuotes] at h
    cases h
  · rw [escapeQuotes_cons hopens] at h
    exact List.cons.inj h

/-- **No three quotes stand at the front of escaped text,** whatever follows it. -/
theorem not_opens_escapeQuotes {cs : List Char} (hne : cs ≠ [])
    (hlast : cs.getLast? ≠ some '"') (more : List Char) : ¬ Opens (escapeQuotes cs ++ more) := by
  rintro ⟨rest, heq⟩
  match cs with
  | [] => exact hne rfl
  | [c] =>
    obtain ⟨rfl, -⟩ := front_escapeQuotes heq
    exact hlast rfl
  | [c, d] =>
    obtain ⟨-, heq⟩ := front_escapeQuotes heq
    obtain ⟨rfl, -⟩ := front_escapeQuotes heq
    exact hlast rfl
  | c :: d :: e :: tail =>
    obtain ⟨rfl, hd⟩ := front_escapeQuotes heq
    obtain ⟨rfl, he⟩ := front_escapeQuotes hd
    obtain ⟨rfl, -⟩ := front_escapeQuotes he
    cases heq

end BlockString

open BlockString

theorem readBlock_cons {c : Char} {cs : List Char} {text rest : List Char}
    (hopens : ¬ Opens (c :: cs)) (hescape : c = '\\' → ¬ Opens cs)
    (h : readBlock cs = .ok (text, rest)) : readBlock (c :: cs) = .ok (c :: text, rest) := by
  rw [readBlock, h]
  · rfl
  · rintro more rfl rfl
    exact hopens ⟨more, rfl⟩
  · rintro more rfl rfl
    exact hescape rfl ⟨more, rfl⟩

/-- **A block string ends at its closing quotes** and is what was escaped. -/
theorem readBlock_escapeQuotes {cs : List Char} (h : EndsPlain cs) (rest : List Char) :
    readBlock (escapeQuotes cs ++ '"' :: '"' :: '"' :: rest) = .ok (cs, rest) := by
  induction cs using escapeQuotes.induct with
  | case1 tail ih =>
    have hne : tail ≠ [] := by
      rintro rfl
      exact (h '"' rfl).1 rfl
    have hread := ih (((h.tail (by simp)).tail (by simp)).tail hne)
    simp only [escapeQuotes, List.cons_append, readBlock, hread]
    rfl
  | case2 c tail hplain ih =>
    have hopens : ¬ Opens (c :: tail) := not_opens_of_not_match hplain
    have hlast : (c :: tail).getLast? ≠ some '"' := fun heq => (h '"' heq).1 rfl
    have hfront :=
      not_opens_escapeQuotes (List.cons_ne_nil c tail) hlast ('"' :: '"' :: '"' :: rest)
    rw [escapeQuotes_cons hopens, List.cons_append] at hfront ⊢
    by_cases hne : tail = []
    · subst hne
      exact readBlock_cons hfront (fun heq => absurd heq (h c rfl).2) rfl
    · refine readBlock_cons hfront (fun _ => ?_) (ih (h.tail hne))
      refine not_opens_escapeQuotes hne (fun heq => ?_) _
      exact ((h.tail hne) '"' heq).1 rfl
  | case3 => rfl

/-! ## Strings on one line -/

open Schema Text

theorem readString_plain {c : Char} {cs value rest : List Char} (hquote : c ≠ '"')
    (hfeed : c ≠ '\n') (hreturn : c ≠ '\r') (hslash : c ≠ '\\')
    (h : readString 0 cs = .ok (value, rest)) :
    readString 0 (c :: cs) = .ok (c :: value, rest) := by
  rw [readString, if_neg hquote, if_neg (by simp [hfeed, hreturn]), if_neg hslash, h]
  rfl

theorem readString_skip (skipped cs : List Char) :
    readString skipped.length (skipped ++ cs) = readString 0 cs := by
  induction skipped with
  | nil => rfl
  | cons c more ih => exact ih

theorem readString_escape {c : Char} (escape : List Char) {cs value rest : List Char}
    (hescape : readEscape ('\\' :: (escape ++ cs)) = .ok (c, escape.length + 1))
    (h : readString 0 cs = .ok (value, rest)) :
    readString 0 ('\\' :: (escape ++ cs)) = .ok (c :: value, rest) := by
  have hskip : readString (escape.length + 1 - 1) (escape ++ cs) = .ok (value, rest) := by
    rw [Nat.add_sub_cancel, readString_skip, h]
  rw [readString, if_neg (by decide), if_neg (by decide), if_pos rfl, hescape]
  show (readString (escape.length + 1 - 1) (escape ++ cs) >>= _) = _
  rw [hskip]
  rfl

/-- Four hexadecimal digits are enough for the control characters, and give the number back. -/
theorem hexDigits_control : ∀ n < 0xA0, (hexDigits true 4 n).length = 4 ∧
    (hexDigits true 4 n).head? ≠ some '\x7b' ∧ '\n' ∉ hexDigits true 4 n ∧
    hexNumber? 0 (hexDigits true 4 n) = some n := by
  decide +kernel

theorem readEscape_control {c : Char} (hc : c.toNat < 0xA0) (cs : List Char) :
    readEscape ('\\' :: ('u' :: hexDigits true 4 c.toNat ++ cs)) = .ok (c, 6) := by
  obtain ⟨hlength, hbrace, -, hnumber⟩ := hexDigits_control c.toNat hc
  have hfour : fourHexDigits? (hexDigits true 4 c.toNat ++ cs) = some c.toNat := by
    rw [fourHexDigits?, List.take_left' hlength, if_pos hlength, hnumber]
  have hscalar : isScalarValue c.toNat = true := by
    simp only [isScalarValue, Bool.or_eq_true, decide_eq_true_eq]
    omega
  have hfixed : fixedEscape ('\\' :: ('u' :: hexDigits true 4 c.toNat ++ cs)) = .ok (c, 6) := by
    unfold fixedEscape
    simp only [List.cons_append, List.drop_succ_cons, List.drop_zero, hfour, hscalar, if_pos,
      Char.ofNat_toNat]
  rw [← hfixed]
  obtain ⟨d, more, hdigits⟩ := List.exists_cons_of_length_eq_add_one hlength
  rw [hdigits] at hbrace ⊢
  show readEscape ('\\' :: 'u' :: d :: (more ++ cs)) = _
  unfold readEscape
  simp only [List.drop_succ_cons, List.drop_zero]
  split
  next heq =>
    obtain ⟨rfl, -⟩ := List.cons.inj (List.cons.inj heq).2
    exact absurd rfl hbrace
  next => rfl
  next hother heq =>
    obtain ⟨rfl, -⟩ := List.cons.inj heq
    exact (hother rfl).elim
  next heq => cases heq

/-- What one character is written as is read back as that character. -/
theorem readString_escapeChar (c : Char) {cs value rest : List Char}
    (h : readString 0 cs = .ok (value, rest)) :
    readString 0 (escapeChar c ++ cs) = .ok (c :: value, rest) := by
  unfold escapeChar
  split
  next => exact readString_escape ['"'] rfl h
  next => exact readString_escape ['\\'] rfl h
  next => exact readString_escape ['n'] rfl h
  next => exact readString_escape ['r'] rfl h
  next => exact readString_escape ['t'] rfl h
  next hquote hslash hfeed hreturn _ =>
    split
    next hc =>
      obtain rfl : c = '\x08' := by rw [← Char.ofNat_toNat c, hc]
      exact readString_escape ['b'] rfl h
    next =>
      split
      next hc =>
        obtain rfl : c = '\x0c' := by rw [← Char.ofNat_toNat c, hc]
        exact readString_escape ['f'] rfl h
      next =>
        split
        next hc =>
          have hcontrol : c.toNat < 0xA0 := by
            simp only [Bool.or_eq_true, Bool.and_eq_true, decide_eq_true_eq] at hc
            omega
          obtain ⟨hlength, -⟩ := hexDigits_control c.toNat hcontrol
          refine readString_escape ('u' :: hexDigits true 4 c.toNat) ?_ h
          rw [List.length_cons, hlength, readEscape_control hcontrol]
        next => exact readString_plain hquote hfeed hreturn hslash h

theorem readString_escaped (cs rest : List Char) :
    readString 0 (cs.flatMap escapeChar ++ '"' :: rest) = .ok (cs, rest) := by
  induction cs with
  | nil => rfl
  | cons c tail ih =>
    rw [List.flatMap_cons, List.append_assoc]
    exact readString_escapeChar c ih

/-! ## Indentation -/

namespace BlockString

theorem indentLines_append (indentation cs more : List Char) :
    indentLines indentation (cs ++ more) =
      indentLines indentation cs ++ indentLines indentation more :=
  List.flatMap_append

theorem indentLines_cons_of_ne {c : Char} (hc : c ≠ '\n') (indentation cs : List Char) :
    indentLines indentation (c :: cs) = c :: indentLines indentation cs := by
  show (if c = '\n' then '\n' :: indentation else [c]) ++ indentLines indentation cs = _
  rw [if_neg hc, List.singleton_append]

theorem indentLines_eq_self {indentation cs : List Char} (h : '\n' ∉ cs) :
    indentLines indentation cs = cs := by
  induction cs with
  | nil => rfl
  | cons c tail ih =>
    rw [List.mem_cons, not_or] at h
    rw [indentLines_cons_of_ne (Ne.symm h.1), ih h.2]

theorem front_indentLines {indentation cs rest : List Char}
    (h : indentLines indentation cs = '"' :: rest) :
    ∃ tail, cs = '"' :: tail ∧ indentLines indentation tail = rest := by
  match cs with
  | [] => cases h
  | c :: tail =>
    by_cases hc : c = '\n'
    · subst hc
      cases h
    · rw [indentLines_cons_of_ne hc] at h
      obtain ⟨rfl, htail⟩ := List.cons.inj h
      exact ⟨tail, rfl, htail⟩

theorem Opens.of_indentLines {indentation cs : List Char} (h : Opens (indentLines indentation cs)) :
    Opens cs := by
  obtain ⟨rest, heq⟩ := h
  obtain ⟨second, rfl, hsecond⟩ := front_indentLines heq
  obtain ⟨third, rfl, hthird⟩ := front_indentLines hsecond
  obtain ⟨tail, rfl, -⟩ := front_indentLines hthird
  exact ⟨tail, rfl⟩

variable {indentation : List Char} (hblank : ∀ c ∈ indentation, c = ' ')

include hblank

theorem plain_newline : ∀ c ∈ '\n' :: indentation, c ≠ '"' ∧ c ≠ '\\' := by
  intro c hc
  obtain rfl | hmem := List.mem_cons.1 hc
  · decide
  · rw [hblank c hmem]
    decide

/-- Indenting moves past the escapes: there is no line feed inside of one. -/
theorem indentLines_escapeQuotes (cs : List Char) :
    indentLines indentation (escapeQuotes cs) = escapeQuotes (indentLines indentation cs) := by
  induction cs using escapeQuotes.induct with
  | case1 tail ih =>
    simp only [escapeQuotes, indentLines_cons_of_ne, ne_eq, Char.reduceEq, not_false_eq_true, ih]
  | case2 c tail hplain ih =>
    rw [escapeQuotes_cons (not_opens_of_not_match hplain)]
    by_cases hc : c = '\n'
    · subst hc
      have hquote : ∀ c ∈ '\n' :: indentation, c ≠ '"' := fun c hc => (plain_newline hblank c hc).1
      show '\n' :: indentation ++ indentLines indentation (escapeQuotes tail) =
        escapeQuotes ('\n' :: indentation ++ indentLines indentation tail)
      rw [escapeQuotes_append hquote, ih]
    · have hopens : ¬ Opens (c :: indentLines indentation tail) := by
        rw [← indentLines_cons_of_ne hc]
        exact fun h => not_opens_of_not_match hplain h.of_indentLines
      rw [indentLines_cons_of_ne hc, indentLines_cons_of_ne hc, escapeQuotes_cons hopens, ih]
  | case3 => rfl

theorem endsPlain_indentLines {cs : List Char} (h : EndsPlain cs) :
    EndsPlain (indentLines indentation cs) := by
  obtain rfl | ⟨body, last, rfl⟩ := List.eq_nil_or_concat' cs
  · exact h
  · rw [indentLines_append]
    by_cases hlast : last = '\n'
    · subst hlast
      have hline : indentLines indentation ['\n'] = '\n' :: indentation := List.append_nil _
      rw [hline]
      exact endsPlain_append (List.cons_ne_nil _ _) (plain_newline hblank)
    · rw [indentLines_cons_of_ne hlast]
      refine endsPlain_append (List.cons_ne_nil _ _) fun c hc => ?_
      obtain rfl := List.mem_singleton.1 hc
      exact h c List.getLast?_concat

omit hblank

/-! ## What stands between the quotes -/

/-- The quotes stand apart from the text. -/
def isApart (value : String) : Bool :=
  1 < (lines value.toList).length || 70 < value.toList.length ||
    value.toList.getLast? = some '"' || value.toList.getLast? = some '\\'

def newlineIf (present : Bool) : List Char := if present then ['\n'] else []

/-- The text between the quotes, before its escapes. -/
def body (value : String) : List Char :=
  newlineIf
      (isApart value && (1 < (lines value.toList).length || !(value.toList.head?.any isIndent))) ++
    (value.toList ++ newlineIf (isApart value))

theorem escapeQuotes_newlineIf_append (present : Bool) (cs : List Char) :
    escapeQuotes (newlineIf present ++ cs) = newlineIf present ++ escapeQuotes cs := by
  cases present with
  | false => rfl
  | true => exact escapeQuotes_append (List.forall_mem_singleton.2 (by decide)) cs

theorem escapeQuotes_append_newlineIf (present : Bool) (cs : List Char) :
    escapeQuotes (cs ++ newlineIf present) = escapeQuotes cs ++ newlineIf present := by
  cases present with
  | false => rw [newlineIf, if_neg Bool.false_ne_true, List.append_nil, List.append_nil]
  | true => exact escapeQuotes_append_newline cs

theorem print_eq (value : String) :
    print value = ['"', '"', '"'] ++ escapeQuotes (body value) ++ ['"', '"', '"'] := by
  rw [body, escapeQuotes_newlineIf_append, escapeQuotes_append_newlineIf]
  simp only [← List.append_assoc]
  rfl

theorem endsPlain_body (value : String) : EndsPlain (body value) := by
  unfold body
  cases hapart : isApart value with
  | true =>
    rw [← List.append_assoc]
    exact endsPlain_append (List.cons_ne_nil _ _) (List.forall_mem_singleton.2 (by decide))
  | false =>
    have hlast : value.toList.getLast? ≠ some '"' ∧ value.toList.getLast? ≠ some '\\' := by
      simp only [isApart, Bool.or_eq_false_iff, decide_eq_false_iff_not] at hapart
      exact ⟨hapart.1.2, hapart.2⟩
    intro c hc
    rw [Bool.false_and, newlineIf, if_neg Bool.false_ne_true, List.nil_append,
      List.append_nil] at hc
    constructor
    · rintro rfl
      exact hlast.1 hc
    · rintro rfl
      exact hlast.2 hc

end BlockString

/-! ## Descriptions -/

/-- No escape begins with a quote, and none holds a line feed. -/
theorem escapeChar_cases (c : Char) :
    ∃ d more, escapeChar c = d :: more ∧ d ≠ '"' ∧ '\n' ∉ d :: more := by
  unfold escapeChar
  split
  next => exact ⟨_, _, rfl, by decide, by decide⟩
  next => exact ⟨_, _, rfl, by decide, by decide⟩
  next => exact ⟨_, _, rfl, by decide, by decide⟩
  next => exact ⟨_, _, rfl, by decide, by decide⟩
  next => exact ⟨_, _, rfl, by decide, by decide⟩
  next hquote _ hfeed _ _ =>
    split
    next => exact ⟨_, _, rfl, by decide, by decide⟩
    next =>
      split
      next => exact ⟨_, _, rfl, by decide, by decide⟩
      next =>
        split
        next hc =>
          have hcontrol : c.toNat < 0xA0 := by
            simp only [Bool.or_eq_true, Bool.and_eq_true, decide_eq_true_eq] at hc
            omega
          obtain ⟨-, -, hdigits, -⟩ := hexDigits_control c.toNat hcontrol
          exact ⟨_, _, rfl, by decide, by simp [hdigits]⟩
        next => exact ⟨c, [], rfl, hquote, by simpa using Ne.symm hfeed⟩

theorem newline_not_mem_quotedText (s : String) : '\n' ∉ quotedText s := by
  intro hmem
  simp only [quotedText, List.mem_append, List.mem_cons, List.mem_flatMap, Char.reduceEq,
    false_or, List.not_mem_nil, or_false] at hmem
  obtain ⟨c, -, hc⟩ := hmem
  obtain ⟨_, _, heq, -, hnot⟩ := escapeChar_cases c
  exact hnot (heq ▸ hc)

theorem Lexes.quoted {s : String} (hne : s.toList ≠ []) {rest : List Char} {ts : List Token}
    (h : Lexes rest ts) : Lexes (quotedText s ++ rest) (.string s :: ts) := by
  have hread := readString_escaped s.toList rest
  obtain ⟨c, tail, hlist⟩ := List.exists_cons_of_ne_nil hne
  obtain ⟨d, more, hescape, hd, -⟩ := escapeChar_cases c
  have hfront : s.toList.flatMap escapeChar ++ '"' :: rest =
      d :: (more ++ (tail.flatMap escapeChar ++ '"' :: rest)) := by
    rw [hlist, List.flatMap_cons, hescape, List.append_assoc, List.cons_append]
  have hquoted : quotedText s ++ rest = '"' :: (s.toList.flatMap escapeChar ++ '"' :: rest) := by
    rw [quotedText, List.cons_append, List.cons_append, List.append_assoc, List.singleton_append]
  rw [hquoted]
  refine Lexes.token (by decide) (by decide) ?_ (by simp) (by simp; omega) h
  rw [hfront] at hread ⊢
  unfold readToken
  split
  next heq => cases heq
  next heq => cases heq
  next heq =>
    simp only [List.cons.injEq] at heq
    exact absurd heq.2.1 hd
  next heq =>
    obtain ⟨-, rfl⟩ := List.cons.inj heq
    rw [hread]
    show Except.ok (Token.string (String.ofList s.toList), rest) = _
    rw [String.ofList_toList]
  next hstring heq =>
    obtain ⟨rfl, rfl⟩ := List.cons.inj heq
    exact (hstring rfl).elim

/-- The token that a written description is read as. -/
def descriptionToken (indentation : List Char) (s : String) : Token :=
  if BlockString.isPrintable s then
    .blockString (BlockString.value (indentLines indentation (BlockString.body s)))
  else .string s

/-- **A written description is read as one token.** -/
theorem Lexes.described {indentation : List Char} (hblank : ∀ c ∈ indentation, c = ' ') (s : String)
    {rest : List Char} {ts : List Token} (h : Lexes rest ts) :
    Lexes (indentLines indentation (describedText s) ++ rest)
      (descriptionToken indentation s :: ts) := by
  unfold describedText descriptionToken
  split
  next =>
    have hread := readBlock_escapeQuotes
      (endsPlain_indentLines hblank (endsPlain_body s)) rest
    have htext : indentLines indentation (print s) ++ rest = '"' :: '"' :: '"' ::
        (escapeQuotes (indentLines indentation (body s)) ++ '"' :: '"' :: '"' :: rest) := by
      rw [print_eq, indentLines_append, indentLines_append, indentLines_escapeQuotes hblank,
        indentLines_eq_self (by decide)]
      simp only [List.append_assoc, List.cons_append, List.nil_append]
    rw [htext]
    refine Lexes.token (by decide) (by decide) ?_ (by simp) (by simp; omega) h
    rw [readToken, hread]
    rfl
  next hprintable =>
    have hne : s.toList ≠ [] := by
      intro hlist
      refine hprintable ?_
      simp only [BlockString.isPrintable, hlist, List.isEmpty_nil, Bool.true_or]
    rw [indentLines_eq_self (newline_not_mem_quotedText s)]
    exact h.quoted hne

end CrudSchema.Sdl
