import CrudSchema.Proofs.Derivation
import CrudSchema.Yaml.Scalar
import CrudSchema.Yaml.Writer
import Mathlib.Algebra.Group.Nat.Defs
import Mathlib.Data.List.TakeWhile

/-!
# Texts in quotes read back

**Places** (`Cursor.skip`). What is left behind so many characters, and that lines only go on.

**Reading** (`Quotes`). From a place on, a quoted scalar is read as a text. A character in front, a
blank, line ends, an escape and the end of a line that is joined to the next each have a rule that
adds to the text of the place behind them.

**Writing.** Each step of `writeSingle` and of `writeDouble` is undone by one of the rules. Between
single quotes, line feeds are taken a run at a time, for one of them is written twice; blanks at
which a line is broken come back because none of their neighbours is blank.

Main results: `quotes_writeSingle` and `quotes_writeDouble`.
-/

namespace CrudSchema.Yaml

/-- Characters of a text are looked at one by one. To decide the quantifier itself might mean to
look at all characters there are. -/
theorem forall_mem_of_all {cs : List Char} {p : Char → Prop} [DecidablePred p]
    (h : (cs.all fun ch => p ch) = true) : ∀ ch ∈ cs, p ch := by
  simpa using h

/-! ## Places -/

namespace Cursor

variable {c : Cursor} {ch : Char} {rest : List Char}

theorem rest_next (c : Cursor) : c.next.rest = c.rest.drop 1 := by
  rw [next]
  split
  next h => rw [h]; rfl
  next h =>
    rw [h]
    split
    · rfl
    · split <;> rfl

theorem rest_skip (c : Cursor) (n : Nat) : (c.skip n).rest = c.rest.drop n := by
  induction n generalizing c with
  | zero => rfl
  | succ n ih => rw [skip, ih, rest_next, List.drop_drop, Nat.add_comm]

theorem rest_skip_of_append (text : List Char) (h : c.rest = text ++ rest) :
    (c.skip text.length).rest = rest := by
  rw [rest_skip, h, List.drop_left]

theorem rest_next_of_cons (h : c.rest = ch :: rest) : c.next.rest = rest := by
  rw [rest_next, h]
  rfl

theorem next_skip (c : Cursor) (n : Nat) : c.next.skip n = c.skip (n + 1) := rfl

theorem line_le_next (c : Cursor) : c.line ≤ c.next.line := by
  rw [next]
  split
  · exact Nat.le_refl _
  · split
    · exact Nat.le_succ _
    · split <;> exact Nat.le_refl _

theorem line_le_skip (c : Cursor) (n : Nat) : c.line ≤ (c.skip n).line := by
  induction n generalizing c with
  | zero => exact Nat.le_refl _
  | succ n ih => exact Nat.le_trans (line_le_next c) (ih c.next)

theorem peek_of_cons (h : c.rest = ch :: rest) : c.peek = ch := by rw [peek, h]; rfl

theorem peek_one_of_cons (h : c.rest = ch :: rest) : c.peek 1 = rest.headD endMark := by
  rw [peek, h]
  cases rest <;> rfl

theorem next_of_newline (h : c.rest = '\n' :: rest) :
    c.next = ⟨rest, c.index + 1, c.line + 1, 0⟩ := by
  rw [next, h]
  rfl

theorem lineBreak?_of_newline (h : c.rest = '\n' :: rest) : c.lineBreak? = some ('\n', c.next) := by
  rw [lineBreak?, peek_of_cons h]
  rfl

theorem lineBreak?_eq_none (h : isBreak c.peek = false) : c.lineBreak? = none := by
  rw [lineBreak?, h]
  rfl

theorem skipWhile_of_append {p : Char → Bool} (text : List Char) (h : c.rest = text ++ ch :: rest)
    (htext : ∀ d ∈ text, p d = true) (hch : p ch = false) : c.skipWhile p = c.skip text.length := by
  rw [skipWhile, count, h, List.takeWhile_append_of_pos htext,
    List.takeWhile_cons_of_neg (by simp [hch]), List.append_nil]

/-- Characters of one line. -/
theorem skip_of_plain (text : List Char) (h : c.rest = text ++ rest)
    (htext : ∀ ch ∈ text, isPlainChar ch = true) :
    c.skip text.length = ⟨rest, c.index + text.length, c.line, c.column + text.length⟩ := by
  induction text generalizing c with
  | nil =>
    rw [List.nil_append] at h
    rw [← h]
    rfl
  | cons ch text ih =>
    obtain ⟨hch, htext⟩ := List.forall_mem_cons.1 htext
    have hbreak : isBreak ch = false := by
      rw [Bool.eq_false_iff]
      intro hbreak
      simp only [isBreak, Bool.or_eq_true, decide_eq_true_eq] at hbreak
      rcases hbreak with (((rfl | rfl) | rfl) | rfl) | rfl <;> exact absurd hch (by decide)
    have hmark : ch ≠ byteOrderMark := by
      rintro rfl
      exact absurd hch (by decide)
    have hnext : c.next = ⟨text ++ rest, c.index + 1, c.line, c.column + 1⟩ := by
      rw [next, h]
      simp only [hbreak, hmark, List.cons_append, Bool.false_and, Bool.false_eq_true, if_false]
    rw [List.length_cons, skip, hnext, ih rfl htext, Nat.add_right_comm,
      Nat.add_right_comm c.column]
    rfl

theorem atDocumentMark_eq_false (h : c.rest = ch :: rest) (hch : ch ≠ '-') (hch' : ch ≠ '.') :
    c.atDocumentMark = false := by
  rw [atDocumentMark, atMark, atMark, h, List.take_succ_cons]
  simp [hch, hch']

end Cursor

/-! ## Characters -/

theorem isGap_eq_false {c : Char} (h : isPlainChar c = true) (hblank : c ≠ ' ') :
    isGap c = false := by
  rw [Bool.eq_false_iff]
  intro hgap
  simp only [isGap, isBreakOrEnd, isBreak, Bool.or_eq_true, decide_eq_true_eq] at hgap
  rcases hgap with (hgap | rfl) | ((((rfl | rfl) | rfl) | rfl) | rfl) | hend
  · exact hblank hgap
  · exact absurd h (by decide)
  · exact absurd h (by decide)
  · exact absurd h (by decide)
  · exact absurd h (by decide)
  · exact absurd h (by decide)
  · exact absurd h (by decide)
  · rw [hend] at h
    exact absurd h (by decide)

/-- Blanks inside of quotes, as `quotedGap` takes them. -/
def isPad (c : Char) : Bool := c = ' ' || c = '\t'

theorem isPad_eq : isPad = fun c => c = ' ' || c = '\t' := rfl

/-- A text begins with what is neither blank nor the end of a line. -/
def Opens (text : List Char) : Prop :=
  ∃ c rest, text = c :: rest ∧ isPad c = false ∧ isBreak c = false

theorem not_isPad_of_not_isGap {c : Char} (h : isGap c = false) :
    isPad c = false ∧ isBreak c = false := by
  simp only [isGap, isBreakOrEnd, Bool.or_eq_false_iff] at h
  simp [isPad, h.1.1, h.1.2, h.2.1]

theorem opens_of_not_isGap {c : Char} (h : isGap c = false) (rest : List Char) :
    Opens (c :: rest) := ⟨c, rest, rfl, not_isPad_of_not_isGap h⟩

/-! ## Lines inside of scalars -/

/-- Empty lines and the blanks that a broken line goes on behind. -/
theorem emptyLines_eq {p : Char → Bool} {c : Cursor} {n : Nat} {text : List Char} (limit : Nat)
    (hblank : p ' ' = true) (hbreak : p '\n' = false) (hpad : ∀ ch, p ch = true → isPad ch = true)
    (h : c.rest = List.replicate n '\n' ++ continuation ++ text) (htext : Opens text)
    (hlimit : n < limit) :
    emptyLines p c limit = ⟨List.replicate n '\n', false, c.skip (n + 2)⟩ := by
  induction n generalizing c limit with
  | zero =>
    obtain ⟨ch, rest, rfl, hch, hend⟩ := htext
    obtain ⟨limit, rfl⟩ := Nat.exists_eq_succ_of_ne_zero (Nat.ne_of_gt hlimit)
    have hskip : c.skipWhile p = c.skip 2 := by
      refine Cursor.skipWhile_of_append _ h ?_ ?_
      · simp [continuation, hblank]
      · exact Bool.eq_false_iff.2 fun hp => by simp [hpad ch hp] at hch
    have hrest : (c.skip 2).rest = ch :: rest := Cursor.rest_skip_of_append continuation h
    rw [emptyLines, Cursor.atDocumentMark_eq_false h (by decide) (by decide), hskip]
    simp only [Bool.false_eq_true, if_false]
    rw [Cursor.lineBreak?_eq_none (by rw [Cursor.peek_of_cons hrest, hend])]
    rfl
  | succ n ih =>
    obtain ⟨limit, rfl⟩ := Nat.exists_eq_succ_of_ne_zero (Nat.ne_of_gt (Nat.zero_lt_of_lt hlimit))
    have h' : c.rest = '\n' :: (List.replicate n '\n' ++ continuation ++ text) := h
    have hskip : c.skipWhile p = c := Cursor.skipWhile_of_append [] h' (by simp) hbreak
    have hmore := ih (c := c.next) limit (Cursor.rest_next_of_cons h')
      (Nat.lt_of_succ_lt_succ hlimit)
    rw [emptyLines, Cursor.atDocumentMark_eq_false h' (by decide) (by decide), hskip]
    simp only [Bool.false_eq_true, if_false]
    rw [Cursor.lineBreak?_of_newline h']
    simp only [hmore]
    rfl

/-- Blanks that stay, for no line ends behind them. -/
theorem quotedGap_of_pads {c : Cursor} {pads text : List Char} (h : c.rest = pads ++ text)
    (hpads : ∀ ch ∈ pads, isPad ch = true) (htext : Opens text) :
    quotedGap c = .ok ⟨pads, c.skip pads.length, false⟩ := by
  obtain ⟨ch, rest, rfl, hch, hend⟩ := htext
  have hrest : (c.skip pads.length).rest = ch :: rest := Cursor.rest_skip_of_append _ h
  have htake : c.rest.takeWhile isPad = pads := by
    rw [h, List.takeWhile_append_of_pos hpads,
      List.takeWhile_cons_of_neg (Bool.eq_false_iff.1 hch), List.append_nil]
  rw [isPad_eq] at htake
  rw [quotedGap]
  simp only [htake]
  rw [Cursor.lineBreak?_eq_none (by rw [Cursor.peek_of_cons hrest, hend])]
  simp only [hrest, List.isEmpty_cons, Bool.false_eq_true, if_false]

/-- The end of a line, more ends of lines, and the line that goes on. -/
theorem quotedGap_of_lines {c : Cursor} {n : Nat} {text : List Char}
    (h : c.rest = '\n' :: (List.replicate n '\n' ++ continuation ++ text)) (htext : Opens text) :
    quotedGap c = .ok ⟨fold '\n' (List.replicate n '\n'), c.skip (n + 3), true⟩ := by
  have htake : c.rest.takeWhile (fun ch => ch = ' ' || ch = '\t') = [] := by
    rw [h, List.takeWhile_cons_of_neg (by decide)]
  have hcount : n < c.next.rest.length + 1 := by
    rw [Cursor.rest_next_of_cons h, List.append_assoc, List.length_append, List.length_replicate]
    omega
  have hlines := emptyLines_eq (p := fun ch => ch = ' ' || ch = '\t') (c := c.next)
    (c.next.rest.length + 1) (by decide) (by decide) (fun _ hp => hp)
    (Cursor.rest_next_of_cons h) htext hcount
  rw [quotedGap]
  simp only [htake, List.length_nil, Cursor.skip]
  rw [Cursor.lineBreak?_of_newline h]
  simp only [hlines, Bool.false_eq_true, if_false, Cursor.next_skip]

/-! ## Reading quoted scalars -/

/-- From a place on, a quoted scalar is read as a text, and so much is left behind it. -/
def Quotes (quote : Char) (c : Cursor) (text rest : List Char) : Prop :=
  ∃ c' : Cursor, c'.rest = rest ∧ c.line ≤ c'.line ∧
    ∀ limit, c.rest.length < limit → quotedFrom quote c limit = .ok ⟨text, c', false⟩

namespace Quotes

variable {quote ch : Char} {c : Cursor} {text rest w : List Char}

/-- Some characters, what they stand for, and the rest of the scalar. -/
theorem step {n : Nat} (front : List Char) (hn : 0 < n) (hlength : n ≤ c.rest.length)
    (hmore : Quotes quote (c.skip n) text rest)
    (hstep : ∀ limit, c.rest.length ≤ limit → quotedFrom quote c (limit + 1) =
      (quotedFrom quote (c.skip n) limit).map fun more =>
        { more with text := front ++ more.text }) :
    Quotes quote c (front ++ text) rest := by
  obtain ⟨c', hrest, hline, hmore⟩ := hmore
  refine ⟨c', hrest, Nat.le_trans (c.line_le_skip n) hline, fun limit hlimit => ?_⟩
  obtain ⟨limit, rfl⟩ := Nat.exists_eq_succ_of_ne_zero (Nat.ne_of_gt (Nat.zero_lt_of_lt hlimit))
  have hless : (c.skip n).rest.length < limit := by
    rw [Cursor.rest_skip, List.length_drop]
    omega
  rw [hstep limit (Nat.le_of_lt_succ hlimit), hmore limit hless]
  rfl

/-- The closing quote. -/
theorem close (h : c.rest = quote :: rest) (hquote : quote = '\'' ∨ quote = '"')
    (hsingle : rest.head? ≠ some '\'') : Quotes quote c [] rest := by
  refine ⟨c.next, Cursor.rest_next_of_cons h, c.line_le_next, fun limit hlimit => ?_⟩
  obtain ⟨limit, rfl⟩ := Nat.exists_eq_succ_of_ne_zero (Nat.ne_of_gt (Nat.zero_lt_of_lt hlimit))
  have hgap : isGap quote = false := by rcases hquote with rfl | rfl <;> decide
  have hnext : (quote = '\'' && c.peek 1 = quote) = false := by
    rw [Bool.and_eq_false_iff, decide_eq_false_iff_not, decide_eq_false_iff_not]
    by_cases hq : quote = '\''
    · subst hq
      refine .inr ?_
      rw [Cursor.peek_one_of_cons h]
      cases rest with
      | nil => decide
      | cons d rest => exact fun hd => hsingle (congrArg some hd)
    · exact .inl hq
  rw [quotedFrom, Cursor.peek_of_cons h]
  simp only [hgap, hnext, Bool.false_eq_true, if_false, if_true]
  rfl

/-- A character that stands for itself. -/
theorem char (h : c.rest = ch :: w) (hgap : isGap ch = false) (hquote : ch ≠ quote)
    (hslash : ch = '\\' → quote ≠ '"') (hmore : Quotes quote c.next text rest) :
    Quotes quote c (ch :: text) rest := by
  have hescape : (quote = '"' && ch = '\\') = false := by
    rw [Bool.and_eq_false_iff, decide_eq_false_iff_not, decide_eq_false_iff_not]
    by_cases hch : ch = '\\'
    · exact .inl (hslash hch)
    · exact .inr hch
  refine step (n := 1) [ch] Nat.one_pos (by rw [h]; simp) hmore fun limit _ => ?_
  rw [quotedFrom, Cursor.peek_of_cons h]
  simp only [hgap, hquote, hescape, Bool.false_eq_true, if_false]
  rfl

/-- A quote that is written twice. -/
theorem doubled (h : c.rest = '\'' :: '\'' :: w) (hmore : Quotes '\'' (c.skip 2) text rest) :
    Quotes '\'' c ('\'' :: text) rest := by
  have hpeek : c.peek 1 = '\'' := Cursor.peek_one_of_cons h
  have hgap : isGap '\'' = false := by decide
  refine step (n := 2) ['\''] Nat.two_pos (by rw [h]; simp) hmore fun limit _ => ?_
  rw [quotedFrom, Cursor.peek_of_cons h]
  simp only [hgap, hpeek, Bool.false_eq_true, if_false, if_true, decide_true, Bool.and_self]
  rfl

/-- What stands for blanks or for line ends. -/
theorem gap {n : Nat} {front : List Char} {newLine : Bool} (h : isGap c.peek = true)
    (hgap : quotedGap c = .ok ⟨front, c.skip n, newLine⟩) (hn : 0 < n) (hlength : n ≤ c.rest.length)
    (hmore : Quotes quote (c.skip n) text rest) : Quotes quote c (front ++ text) rest := by
  refine step front hn hlength hmore fun limit _ => ?_
  rw [quotedFrom]
  simp only [h, if_true, hgap]
  rfl

/-- A blank, if no line ends behind it and other blanks. -/
theorem blank (h : c.rest = ' ' :: w) (hw : Opens (w.dropWhile isPad))
    (hmore : Quotes quote c.next text rest) : Quotes quote c (' ' :: text) rest := by
  have hpads : ∀ ch ∈ w.takeWhile isPad, isPad ch = true := fun _ => List.mem_takeWhile_imp
  have hnext : c.next.rest = w.takeWhile isPad ++ w.dropWhile isPad := by
    rw [Cursor.rest_next_of_cons h, List.takeWhile_append_dropWhile]
  have hall : c.rest = (' ' :: w.takeWhile isPad) ++ w.dropWhile isPad := by
    rw [h, List.cons_append, List.takeWhile_append_dropWhile]
  have hgap := quotedGap_of_pads hall (by simpa [isPad] using hpads) hw
  have hhere : isGap c.peek = true := by rw [Cursor.peek_of_cons h]; rfl
  cases hfirst : w.takeWhile isPad with
  | nil =>
    rw [hfirst] at hgap
    exact gap hhere hgap Nat.one_pos (by rw [h]; simp) hmore
  | cons pad pads =>
    -- the gap from here is the gap from the next blank, and one blank more
    have hgap' := quotedGap_of_pads hnext hpads hw
    rw [hfirst] at hgap hgap' hnext
    have hpad : isGap c.next.peek = true := by
      have := hpads pad (hfirst ▸ List.mem_cons_self)
      rw [isPad] at this
      rw [Cursor.peek_of_cons hnext, isGap, this, Bool.true_or]
    obtain ⟨c', hrest, hline, hmore⟩ := hmore
    refine ⟨c', hrest, Nat.le_trans c.line_le_next hline, fun limit hlimit => ?_⟩
    obtain ⟨limit, rfl⟩ := Nat.exists_eq_succ_of_ne_zero (Nat.ne_of_gt (Nat.zero_lt_of_lt hlimit))
    have hread := hmore (limit + 1) (by
      rw [Cursor.rest_next_of_cons h]
      rw [h] at hlimit
      exact Nat.lt_of_succ_lt hlimit)
    rw [quotedFrom] at hread ⊢
    simp only [hpad, hhere, if_true, hgap, hgap', List.length_cons, Cursor.next_skip] at hread ⊢
    obtain ⟨found, hfound, hread⟩ := Except.exists_of_bind hread
    obtain ⟨⟨_, _, _⟩, hlater, hread⟩ := Except.exists_of_bind hread
    cases hfound
    cases hread
    dsimp only at hlater
    simp only [bind, Except.bind, hlater]
    rfl

/-- The end of a line, more ends of lines, and the line that goes on. -/
theorem lines {n : Nat} (h : c.rest = '\n' :: (List.replicate n '\n' ++ continuation ++ w))
    (hw : Opens w) (hmore : Quotes quote (c.skip (n + 3)) text rest) :
    Quotes quote c (fold '\n' (List.replicate n '\n') ++ text) rest := by
  refine gap (by rw [Cursor.peek_of_cons h]; decide) (quotedGap_of_lines h hw) (Nat.succ_pos _) ?_
    hmore
  rw [h]
  simp [continuation]

end Quotes

/-! ## Between single quotes -/

theorem hasPair_cons {p : Char → Char → Bool} {c : Char} {cs : List Char}
    (h : hasPair p (c :: cs) = false) : hasPair p cs = false ∧ ∀ d ∈ cs.head?, p c d = false := by
  cases cs with
  | nil => exact ⟨rfl, by simp⟩
  | cons d rest =>
    rw [hasPair, Bool.or_eq_false_iff] at h
    exact ⟨h.2, by simpa using h.1⟩

/-- A text that is kept between single quotes is so without its first character, and blanks are not
next to line feeds in it. -/
theorem allowsSingle_cons {c : Char} {cs : List Char} (h : allowsSingle (c :: cs) = true) :
    (isPlainChar c = true ∨ c = '\n') ∧ allowsSingle cs = true ∧
      (c = ' ' → cs.head? ≠ some '\n') ∧ (c = '\n' → cs.head? ≠ some ' ') := by
  simp only [allowsSingle, Bool.and_eq_true, Bool.not_eq_true', List.all_cons, Bool.or_eq_true,
    decide_eq_true_eq] at h ⊢
  obtain ⟨hrest, hpair⟩ := hasPair_cons h.2
  refine ⟨h.1.1, ⟨h.1.2, hrest⟩, ?_, ?_⟩
  · rintro rfl hhead
    simpa using hpair _ hhead
  · rintro rfl hhead
    simpa using hpair _ hhead

theorem allowsSingle_append {cs cs' : List Char} (h : allowsSingle (cs ++ cs') = true) :
    allowsSingle cs' = true := by
  induction cs with
  | nil => exact h
  | cons c cs ih => exact ih (allowsSingle_cons h).2.1

theorem writeSingle_lineFeeds {column n : Nat} {cs : List Char} (h : cs.head? ≠ some '\n') :
    writeSingle column (some '\n') ('\n' :: (List.replicate n '\n' ++ cs)) =
      '\n' :: (List.replicate n '\n' ++ continuation ++
        writeSingle continuation.length (some '\n') cs) := by
  induction n generalizing column with
  | zero =>
    rw [writeSingle]
    simp [h]
  | succ n ih =>
    rw [List.replicate_succ, List.cons_append, writeSingle, if_pos rfl, if_pos rfl]
    simp only [List.head?_cons, if_true, List.nil_append]
    rw [ih]
    rfl

/-- A text begins with some number of copies of a character. -/
theorem exists_run (ch : Char) (cs : List Char) :
    ∃ n cs', cs = List.replicate n ch ++ cs' ∧ cs'.head? ≠ some ch := by
  induction cs with
  | nil => exact ⟨0, [], rfl, nofun⟩
  | cons c cs ih =>
    by_cases hc : c = ch
    · obtain ⟨n, cs', rfl, hcs'⟩ := ih
      exact ⟨n + 1, cs', by rw [hc]; rfl, hcs'⟩
    · exact ⟨0, c :: cs, rfl, by simpa using hc⟩

/-- Of several line feeds the first is written twice. -/
theorem writeSingle_lines {column n : Nat} {before : Option Char} {cs : List Char}
    (hbefore : before ≠ some '\n') (h : cs.head? ≠ some '\n') :
    writeSingle column before (List.replicate (n + 1) '\n' ++ cs) =
      '\n' :: (List.replicate (n + 1) '\n' ++ continuation ++
        writeSingle continuation.length (some '\n') cs) := by
  rw [List.replicate_succ, List.cons_append, writeSingle, if_pos rfl, if_neg hbefore]
  cases n with
  | zero => simp [h]
  | succ n =>
    rw [List.replicate_succ, List.cons_append, List.head?_cons, if_pos rfl,
      writeSingle_lineFeeds h]
    rfl

theorem writeSingle_char {column : Nat} {before : Option Char} {c : Char} {cs : List Char}
    (hfeed : c ≠ '\n') (hquote : c ≠ '\'') (hblank : c ≠ ' ') :
    writeSingle column before (c :: cs) = c :: writeSingle (column + 1) (some c) cs := by
  rw [writeSingle, if_neg hfeed, if_neg hquote]
  simp [hblank]

/-- What is written for a text that goes on, and the quote behind it. -/
theorem opens_writeSingle (column : Nat) (before : Option Char) {cs : List Char} (rest : List Char)
    (h : allowsSingle cs = true) (hblank : cs.head? ≠ some ' ') (hfeed : cs.head? ≠ some '\n') :
    Opens (writeSingle column before cs ++ '\'' :: rest) := by
  cases cs with
  | nil => exact opens_of_not_isGap (by decide) rest
  | cons c cs =>
    have hc : c ≠ ' ' := fun hc => hblank (congrArg some hc)
    have hn : c ≠ '\n' := fun hn => hfeed (congrArg some hn)
    by_cases hquote : c = '\''
    · rw [writeSingle, if_neg hn, if_pos hquote]
      exact opens_of_not_isGap (by decide) _
    · rw [writeSingle_char hn hquote hc]
      exact opens_of_not_isGap (isGap_eq_false ((allowsSingle_cons h).1.resolve_right hn) hc) _

/-- No line is broken behind a blank. -/
theorem opens_dropWhile_writeSingle {column : Nat} {cs rest : List Char}
    (h : allowsSingle (' ' :: cs) = true) :
    Opens ((writeSingle column (some ' ') cs ++ '\'' :: rest).dropWhile isPad) := by
  induction cs generalizing column with
  | nil => exact opens_of_not_isGap (by decide) rest
  | cons c cs ih =>
    obtain ⟨-, hcs, hfeed, -⟩ := allowsSingle_cons h
    by_cases hc : c = ' '
    · subst hc
      have hwrite : writeSingle column (some ' ') (' ' :: cs) =
          ' ' :: writeSingle (column + 1) (some ' ') cs := by
        rw [writeSingle]
        simp
      rw [hwrite, List.cons_append, List.dropWhile_cons_of_pos (by decide)]
      exact ih hcs
    · obtain ⟨d, w, hw, hpad, hbreak⟩ := opens_writeSingle column (some ' ') rest hcs
        (by simpa using hc) (hfeed rfl)
      rw [hw, List.dropWhile_cons_of_neg (by simp [hpad])]
      exact ⟨d, w, rfl, hpad, hbreak⟩

/-- **What is written between single quotes reads back.** -/
theorem quotes_writeSingle {c : Cursor} {column : Nat} (before : Option Char) {cs rest : List Char}
    (h : allowsSingle cs = true) (hbefore : before = some '\n' → cs.head? ≠ some '\n')
    (hrest : rest.head? ≠ some '\'') (hc : c.rest = writeSingle column before cs ++ '\'' :: rest) :
    Quotes '\'' c cs rest := by
  match cs with
  | [] => exact .close hc (.inl rfl) hrest
  | ch :: cs =>
    obtain ⟨hch, hcs, hblank, hfeed⟩ := allowsSingle_cons h
    by_cases hn : ch = '\n'
    · subst hn
      obtain ⟨n, cs', rfl, hcs'⟩ := exists_run '\n' cs
      have hone : '\n' :: (List.replicate n '\n' ++ cs') = List.replicate (n + 1) '\n' ++ cs' := rfl
      have hlast : allowsSingle ('\n' :: cs') = true := by
        rw [hone, List.replicate_succ', List.append_assoc] at h
        exact allowsSingle_append h
      obtain ⟨-, hallow, -, hspace⟩ := allowsSingle_cons hlast
      rw [hone, writeSingle_lines (fun hb => hbefore hb rfl) hcs', List.cons_append,
        List.append_assoc] at hc
      have hbehind := Cursor.rest_skip_of_append
        ('\n' :: (List.replicate (n + 1) '\n' ++ continuation)) hc
      rw [List.length_cons, List.length_append, List.length_replicate] at hbehind
      have hmore := quotes_writeSingle _ hallow (fun _ => hcs') hrest hbehind
      exact .lines hc (opens_writeSingle _ _ _ hallow (hspace rfl) hcs') hmore
    by_cases hquote : ch = '\''
    · subst hquote
      rw [writeSingle, if_neg hn, if_pos rfl] at hc
      exact .doubled hc (quotes_writeSingle (some '\'') hcs nofun hrest
        (Cursor.rest_skip_of_append ['\'', '\''] hc))
    by_cases hspace : ch = ' '
    · subst hspace
      rw [writeSingle, if_neg hn, if_neg hquote] at hc
      dsimp only at hc
      split at hc
      next hbroken =>
        have hnext : cs.head? ≠ some ' ' := by
          intro hnext
          simp [hnext] at hbroken
        have hbehind := Cursor.rest_skip_of_append ('\n' :: continuation) hc
        exact .lines (n := 0) hc (opens_writeSingle _ _ _ hcs hnext (hblank rfl))
          (quotes_writeSingle (some ' ') hcs nofun hrest hbehind)
      next =>
        exact .blank hc (opens_dropWhile_writeSingle h)
          (quotes_writeSingle (some ' ') hcs nofun hrest
            (Cursor.rest_next_of_cons hc))
    · rw [writeSingle_char hn hquote hspace] at hc
      refine .char hc (isGap_eq_false (hch.resolve_right hn) hspace) hquote (fun _ => by decide) ?_
      exact quotes_writeSingle _ hcs (fun heq => absurd (Option.some.inj heq) hn) hrest
        (Cursor.rest_next_of_cons hc)
termination_by cs.length

/-! ## Escapes -/

theorem Text.length_hexDigits (upper : Bool) (width n : Nat) :
    (Text.hexDigits upper width n).length = width := by
  induction width generalizing n with
  | zero => rfl
  | succ w ih => rw [Text.hexDigits, List.length_append, ih]; rfl

theorem Text.hexNumber?_append (n : Nat) (ds ds' : List Char) :
    Text.hexNumber? n (ds ++ ds') = (Text.hexNumber? n ds).bind fun m => Text.hexNumber? m ds' := by
  induction ds generalizing n with
  | nil => rfl
  | cons d ds ih =>
    rw [List.cons_append, Text.hexNumber?, Text.hexNumber?]
    cases Text.hexValue? d with
    | none => rfl
    | some v => exact ih _

/-- The last hexadecimal digits of a number make the rest of it. -/
theorem Text.hexNumber?_hexDigits (m width n : Nat) :
    Text.hexNumber? m (Text.hexDigits true width n) = some (16 ^ width * m + n % 16 ^ width) := by
  have hdigit : ∀ d < 16, Text.hexValue? (Text.hexDigit true d) = some d := by decide
  induction width generalizing n with
  | zero => simp [Text.hexDigits, Text.hexNumber?, Nat.mod_one]
  | succ w ih =>
    rw [Text.hexDigits, Text.hexNumber?_append, ih, Option.bind_some, Text.hexNumber?,
      hdigit _ (Nat.mod_lt _ (by decide))]
    simp only [Option.bind_some, Text.hexNumber?, Option.some.injEq]
    rw [Nat.pow_succ', Nat.mod_mul, Nat.mul_add, Nat.mul_assoc]
    omega

theorem scanEscape_hex {c : Cursor} {ch mark : Char} {width : Nat} {rest : List Char}
    (hletter : escapes.lookup mark = none) (hmark : escapeWidth? mark = some width)
    (hch : ch.toNat < 16 ^ width)
    (h : c.rest = mark :: (Text.hexDigits true width ch.toNat ++ rest)) :
    scanEscape c = .ok ⟨[ch], c.skip (width + 1), false⟩ := by
  have hdigits : (c.rest.drop 1).take width = Text.hexDigits true width ch.toNat := by
    rw [h, List.drop_one, List.tail_cons, List.take_left' (Text.length_hexDigits _ _ _)]
  have hnumber := Text.hexNumber?_hexDigits 0 width ch.toNat
  rw [Nat.mul_zero, Nat.zero_add, Nat.mod_eq_of_lt hch] at hnumber
  have hlargest : ¬ 0x10FFFF < ch.toNat := by
    have := ch.valid
    simp only [UInt32.isValidChar, Nat.isValidChar] at this
    rw [Char.toNat]
    omega
  have hvalid : ch.toNat.isValidChar := ch.valid
  rw [scanEscape, Cursor.peek_of_cons h, hletter, hmark]
  dsimp only
  rw [hdigits, hnumber]
  dsimp only
  rw [Text.length_hexDigits, if_neg (Nat.lt_irrefl width), if_neg hlargest, dif_pos hvalid]
  rfl

/-- An escape stands for the character it is made from. -/
theorem exists_escapeOf (ch : Char) : ∃ e, escapeOf ch = '\\' :: e ∧
    ∀ (c : Cursor) (rest : List Char), c.rest = e ++ rest →
      scanEscape c = .ok ⟨[ch], c.skip e.length, false⟩ := by
  have hletters : ∀ p ∈ escapeLetters, escapes.lookup p.2 = some p.1 := by decide
  rw [escapeOf]
  cases hlookup : escapeLetters.lookup ch with
  | some letter =>
    obtain ⟨l₁, l₂, hsplit, -⟩ := List.lookup_eq_some_iff.1 hlookup
    have hletter : escapes.lookup letter = some ch :=
      hletters (ch, letter) (hsplit ▸ List.mem_append_right l₁ List.mem_cons_self)
    refine ⟨[letter], rfl, fun c rest h => ?_⟩
    rw [scanEscape, Cursor.peek_of_cons h]
    simp only [hletter]
    rfl
  | none =>
    have hhex : ∀ mark width, escapes.lookup mark = none → escapeWidth? mark = some width →
        ch.toNat < 16 ^ width → ∀ (c : Cursor) (rest : List Char),
        c.rest = (mark :: Text.hexDigits true width ch.toNat) ++ rest →
        scanEscape c =
          .ok ⟨[ch], c.skip (mark :: Text.hexDigits true width ch.toNat).length, false⟩ := by
      intro mark width hletter hmark hch c rest h
      rw [scanEscape_hex hletter hmark hch h, List.length_cons, Text.length_hexDigits]
    dsimp only
    split
    · exact ⟨_, rfl, hhex 'x' 2 (by decide) rfl (by omega)⟩
    · split
      · exact ⟨_, rfl, hhex 'u' 4 (by decide) rfl (by omega)⟩
      · have hlimit : ch.toNat < 2 ^ 32 := ch.val.toNat_lt
        exact ⟨_, rfl, hhex 'U' 8 (by decide) rfl (by omega)⟩

/-! ## Between double quotes -/

namespace Quotes

variable {ch : Char} {c : Cursor} {text rest w : List Char}

theorem escape {n : Nat} {front : List Char} {newLine : Bool} (h : c.rest = '\\' :: w)
    (hescape : scanEscape c.next = .ok ⟨front, c.skip n, newLine⟩) (hn : 0 < n)
    (hlength : n ≤ c.rest.length) (hmore : Quotes '"' (c.skip n) text rest) :
    Quotes '"' c (front ++ text) rest := by
  have hgap : isGap '\\' = false := by decide
  have hquote : '\\' ≠ '"' := by decide
  refine step front hn hlength hmore fun limit _ => ?_
  rw [quotedFrom, Cursor.peek_of_cons h]
  simp only [hgap, hquote, hescape, Bool.false_eq_true, if_false, if_true, decide_true,
    Bool.and_self]
  rfl

/-- A character that is written by its escape. -/
theorem escaped (h : c.rest = escapeOf ch ++ w)
    (hmore : Quotes '"' (c.skip (escapeOf ch).length) text rest) :
    Quotes '"' c (ch :: text) rest := by
  obtain ⟨e, he, hread⟩ := exists_escapeOf ch
  rw [he] at h hmore
  have hescape := hread c.next w (Cursor.rest_next_of_cons h)
  refine escape h hescape (Nat.succ_pos _) ?_ hmore
  rw [h]
  simp

/-- A line that is joined to the next. -/
theorem joint (h : c.rest = '\\' :: '\n' :: (continuation ++ w)) (hw : Opens w)
    (hmore : Quotes '"' (c.skip 4) text rest) : Quotes '"' c text rest := by
  have hnext := Cursor.rest_next_of_cons h
  have hlines := emptyLines_eq (p := fun ch => ch = ' ' || ch = '\t') (c := c.next.next) (n := 0)
    (c.next.next.rest.length + 1) (by decide) (by decide) (fun _ hp => hp)
    (Cursor.rest_next_of_cons hnext) hw (Nat.succ_pos _)
  have hescape : scanEscape c.next = .ok ⟨[], c.skip 4, true⟩ := by
    have hletter : escapes.lookup '\n' = none := by decide
    have hwidth : escapeWidth? '\n' = none := rfl
    rw [scanEscape, Cursor.peek_of_cons hnext]
    simp only [hletter, hwidth]
    rw [Cursor.lineBreak?_of_newline hnext]
    simp only [hlines, Bool.false_eq_true, if_false]
    rfl
  refine escape h hescape (Nat.succ_pos _) ?_ hmore
  rw [h]
  simp [continuation]

end Quotes

theorem of_isEscaped_eq_false {ch : Char} (h : isEscaped ch = false) :
    isPlainChar ch = true ∧ ch ≠ '"' ∧ ch ≠ '\\' := by
  simpa [isEscaped, and_assoc] using h

/-- A character at the beginning of a joined line. -/
theorem Quotes.joined {c : Cursor} {ch : Char} {text rest w : List Char}
    (hch : isEscaped ch = false) (h : c.rest = joinedLine (some ch) ++ ch :: w)
    (hmore : ∀ c' : Cursor, c'.rest = w → Quotes '"' c' text rest) :
    Quotes '"' c (ch :: text) rest := by
  obtain ⟨hplain, hquote, hslash⟩ := of_isEscaped_eq_false hch
  by_cases hblank : ch = ' '
  · subst hblank
    have hrest : (c.skip 4).rest = '\\' :: ' ' :: w := by rw [Cursor.rest_skip, h]; rfl
    have hescape : scanEscape (c.skip 4).next = .ok ⟨[' '], (c.skip 4).skip 2, false⟩ := by
      rw [scanEscape, Cursor.peek_of_cons (Cursor.rest_next_of_cons hrest)]
      rfl
    refine .joint (w := '\\' :: ' ' :: w) h (opens_of_not_isGap (by decide) _) ?_
    refine .escape hrest hescape Nat.two_pos (by rw [hrest]; simp) (hmore _ ?_)
    exact Cursor.rest_next_of_cons (Cursor.rest_next_of_cons hrest)
  · have hjoined : joinedLine (some ch) = '\\' :: '\n' :: continuation := by
      simp [joinedLine, hblank]
    rw [hjoined] at h
    have hgap := isGap_eq_false hplain hblank
    have hrest : (c.skip 4).rest = ch :: w := by rw [Cursor.rest_skip, h]; rfl
    refine .joint (w := ch :: w) h (opens_of_not_isGap hgap _) ?_
    exact .char hrest hgap hquote (fun hs => absurd hs hslash)
      (hmore _ (Cursor.rest_next_of_cons hrest))

theorem writeDouble_escaped (column : Nat) (first afterEscape : Bool) {ch : Char} (cs : List Char)
    (h : isEscaped ch = true) : ∃ column', writeDouble column first afterEscape (ch :: cs) =
      escapeOf ch ++ writeDouble column' false true cs ∨ cs ≠ [] ∧
      writeDouble column first afterEscape (ch :: cs) = escapeOf ch ++
        (joinedLine cs.head? ++ writeDouble (joinedColumn cs.head?) false true cs) := by
  rw [writeDouble, if_pos h]
  dsimp only
  split
  next hinside =>
    refine ⟨0, .inr ⟨?_, List.append_assoc _ _ _⟩⟩
    rintro rfl
    simp at hinside
  next => exact ⟨_, .inl rfl⟩

theorem writeDouble_char (column : Nat) (first afterEscape : Bool) {ch : Char} (cs : List Char)
    (h : isEscaped ch = false) : ∃ column', writeDouble column first afterEscape (ch :: cs) =
      ch :: writeDouble column' false false cs ∨
      writeDouble column first afterEscape (ch :: cs) =
        joinedLine (some ch) ++ ch :: writeDouble column' false false cs := by
  rw [writeDouble, if_neg (Bool.eq_false_iff.1 h)]
  split
  · exact ⟨_, .inr rfl⟩
  · exact ⟨_, .inl rfl⟩

/-- At the beginning of a line no character is put on the next. -/
theorem writeDouble_start {column : Nat} {first afterEscape : Bool} {ch : Char} {cs : List Char}
    (h : isEscaped ch = false) (hcolumn : column ≤ lineWidth) :
    writeDouble column first afterEscape (ch :: cs) =
      ch :: writeDouble (column + 1) false false cs := by
  rw [writeDouble, if_neg (Bool.eq_false_iff.1 h)]
  simp [Nat.not_lt.2 hcolumn]

theorem opens_writeDouble (column : Nat) (first afterEscape : Bool) {ch : Char}
    (cs rest : List Char) (h : isEscaped ch = true) :
    Opens (writeDouble column first afterEscape (ch :: cs) ++ '"' :: rest) := by
  obtain ⟨e, he, -⟩ := exists_escapeOf ch
  obtain ⟨column', hwrite | ⟨-, hwrite⟩⟩ := writeDouble_escaped column first afterEscape cs h
  · rw [hwrite, he]
    exact opens_of_not_isGap (by decide) _
  · rw [hwrite, he]
    exact opens_of_not_isGap (by decide) _

/-- Behind blanks comes a character, an escape, the end of a joined line or the quote. -/
theorem opens_dropWhile_writeDouble (column : Nat) (first afterEscape : Bool)
    (cs rest : List Char) :
    Opens ((writeDouble column first afterEscape cs ++ '"' :: rest).dropWhile isPad) := by
  induction cs generalizing column first afterEscape with
  | nil => exact opens_of_not_isGap (by decide) rest
  | cons ch cs ih =>
    cases h : isEscaped ch with
    | true =>
      obtain ⟨d, w, hw, hpad, hbreak⟩ := opens_writeDouble column first afterEscape cs rest h
      rw [hw, List.dropWhile_cons_of_neg (by simp [hpad])]
      exact ⟨d, w, rfl, hpad, hbreak⟩
    | false =>
      obtain ⟨column', hwrite | hwrite⟩ := writeDouble_char column first afterEscape cs h
      · rw [hwrite, List.cons_append]
        by_cases hblank : ch = ' '
        · subst hblank
          rw [List.dropWhile_cons_of_pos (by decide)]
          exact ih _ _ _
        · have hgap := isGap_eq_false (of_isEscaped_eq_false h).1 hblank
          rw [List.dropWhile_cons_of_neg (by simp [(not_isPad_of_not_isGap hgap).1])]
          exact opens_of_not_isGap hgap _
      · rw [hwrite]
        exact opens_of_not_isGap (by decide) _

/-- **What is written between double quotes reads back.** -/
theorem quotes_writeDouble {c : Cursor} {column : Nat} {first afterEscape : Bool}
    (cs : List Char) {rest : List Char} (hrest : rest.head? ≠ some '\'')
    (hc : c.rest = writeDouble column first afterEscape cs ++ '"' :: rest) :
    Quotes '"' c cs rest := by
  match cs with
  | [] => exact .close hc (.inr rfl) hrest
  | ch :: cs =>
    cases h : isEscaped ch with
    | true =>
      obtain ⟨column', hwrite | ⟨hne, hwrite⟩⟩ :=
        writeDouble_escaped column first afterEscape cs h
      · rw [hwrite, List.append_assoc] at hc
        exact .escaped hc (quotes_writeDouble _ hrest (Cursor.rest_skip_of_append _ hc))
      · rw [hwrite, List.append_assoc, List.append_assoc] at hc
        refine .escaped hc ?_
        have hbehind := Cursor.rest_skip_of_append _ hc
        obtain ⟨next, cs, rfl⟩ := List.exists_cons_of_ne_nil hne
        rw [List.head?_cons] at hbehind
        cases hnext : isEscaped next with
        | true =>
          have hblank : next ≠ ' ' := by
            rintro rfl
            exact absurd hnext (by decide)
          have hjoined : joinedLine (some next) = '\\' :: '\n' :: continuation := by
            simp [joinedLine, hblank]
          rw [hjoined] at hbehind
          refine .joint hbehind ?_ (quotes_writeDouble (next :: cs) hrest
            (Cursor.rest_skip_of_append ('\\' :: '\n' :: continuation) hbehind))
          exact opens_writeDouble _ _ _ _ _ hnext
        | false =>
          have hcolumn : joinedColumn (some next) ≤ lineWidth := by
            simp only [joinedColumn, continuation, lineWidth]
            split <;> simp
          rw [writeDouble_start hnext hcolumn] at hbehind
          exact .joined hnext hbehind fun _ => quotes_writeDouble _ hrest
    | false =>
      obtain ⟨column', hwrite | hwrite⟩ := writeDouble_char column first afterEscape cs h
      · rw [hwrite, List.cons_append] at hc
        have hmore := quotes_writeDouble _ hrest (Cursor.rest_next_of_cons hc)
        by_cases hblank : ch = ' '
        · subst hblank
          exact .blank hc (opens_dropWhile_writeDouble ..) hmore
        · obtain ⟨hplain, hquote, hslash⟩ := of_isEscaped_eq_false h
          exact .char hc (isGap_eq_false hplain hblank) hquote (fun hs => absurd hs hslash) hmore
      · rw [hwrite, List.append_assoc, List.cons_append] at hc
        exact .joined h hc fun _ => quotes_writeDouble _ hrest
termination_by cs.length

end CrudSchema.Yaml
