import CrudSchema.Proofs.Quoting

/-!
# Texts without quotes read back

**Lines** (`BeginsLine`). A scalar ends where a line of the document begins, which is further out.

**Chunks and gaps.** A plain scalar is read in chunks without blanks, and gaps between them: blanks
of one line, or the end of a line that was broken at a single blank. Writing keeps the chunks
(`writePlain_chunk`) and gives one of these for the blanks (`writePlain_gap`).

**What a text may hold** (`PlainTail`). No colon before a blank or at the end and no number sign
behind a blank, so nothing ends the scalar before its line does.

Main result: `scanPlain_writePlain`. A key is read up to its colon (`scanPlain_key`).
-/

namespace CrudSchema.Yaml

/-! ## Lines of a document -/

/-- Neither a gap nor a comment is in front. -/
def Apart (text : List Char) : Prop := ∀ ch ∈ text.head?, isGap ch = false ∧ ch ≠ '#'

/-- A line begins with something, or nothing is left. -/
structure BeginsLine (text : List Char) : Prop where
  apart : Apart text
  unmarked : text.take 3 ≠ ['-', '-', '-'] ∧ text.take 3 ≠ ['.', '.', '.']

namespace Cursor

variable {c : Cursor} {text : List Char}

theorem peek_of_apart (h : Apart text) (hc : c.rest = text) :
    isBreak c.peek = false ∧ c.peek ≠ ' ' ∧ c.peek ≠ '#' := by
  cases text with
  | nil =>
    have hpeek : c.peek = endMark := by rw [Cursor.peek, hc]; rfl
    rw [hpeek]
    decide
  | cons ch rest =>
    obtain ⟨hgap, hmark⟩ := h ch rfl
    rw [Cursor.peek_of_cons hc]
    refine ⟨(not_isPad_of_not_isGap hgap).2, ?_, hmark⟩
    rintro rfl
    exact absurd hgap (by decide)

theorem skipWhile_of_apart (h : Apart text) (hc : c.rest = text) :
    c.skipWhile (· = ' ') = c := by
  have hblank := (peek_of_apart h hc).2.1
  rw [Cursor.skipWhile, Cursor.count, hc]
  cases text with
  | nil => rfl
  | cons ch rest =>
    rw [Cursor.peek_of_cons hc] at hblank
    rw [List.takeWhile_cons_of_neg (by simpa using hblank)]
    rfl

end Cursor

theorem BeginsLine.emptyLines_eq {text : List Char} (h : BeginsLine text) {c : Cursor}
    (hc : c.rest = text) (limit : Nat) :
    emptyLines (· = ' ') c (limit + 1) = ⟨[], false, c⟩ := by
  have hmark : c.atDocumentMark = false := by
    simp [Cursor.atDocumentMark, Cursor.atMark, hc, h.unmarked]
  rw [emptyLines, hmark]
  simp only [Bool.false_eq_true, if_false, Cursor.skipWhile_of_apart h.apart hc,
    Cursor.lineBreak?_eq_none (Cursor.peek_of_apart h.apart hc).1]

/-! ## Gaps -/

/-- The end of the line that a scalar ends on. -/
theorem plainGap_of_end {c : Cursor} {rest : List Char} (h : c.rest = '\n' :: rest)
    (hrest : BeginsLine rest) : plainGap c = ⟨[' '], c.next, true⟩ := by
  have htake : c.rest.takeWhile (· = ' ') = [] := by rw [h]; rfl
  rw [plainGap]
  simp only [htake, List.length_nil, Cursor.skip]
  rw [Cursor.lineBreak?_of_newline h]
  simp only [hrest.emptyLines_eq (Cursor.rest_next_of_cons h)]
  rfl

/-- The end of a broken line, and the blanks that the next begins with. -/
theorem plainGap_of_fold {c : Cursor} {text : List Char}
    (h : c.rest = '\n' :: (continuation ++ text)) (htext : Opens text) :
    plainGap c = ⟨[' '], c.skip 3, true⟩ := by
  have htake : c.rest.takeWhile (· = ' ') = [] := by rw [h]; rfl
  have hlines := emptyLines_eq (p := (· = ' ')) (c := c.next) (n := 0)
    (c.next.rest.length + 1) (by decide) (by decide) (by simp +contextual [isPad])
    (Cursor.rest_next_of_cons h) htext (Nat.succ_pos _)
  rw [plainGap]
  simp only [htake, List.length_nil, Cursor.skip]
  rw [Cursor.lineBreak?_of_newline h]
  simp only [hlines]
  rfl

/-- Blanks of one line. -/
theorem plainGap_of_blanks {c : Cursor} {n : Nat} {text : List Char}
    (h : c.rest = List.replicate n ' ' ++ text) (htext : ∀ ch ∈ text.head?, ch ≠ ' ')
    (hbreak : ∀ ch ∈ text.head?, isBreak ch = false) :
    plainGap c = ⟨List.replicate n ' ', c.skip n, false⟩ := by
  have htake : c.rest.takeWhile (· = ' ') = List.replicate n ' ' := by
    rw [h, List.takeWhile_append_of_pos (by simp)]
    cases text with
    | nil => simp
    | cons ch rest => rw [List.takeWhile_cons_of_neg (by simpa using htext), List.append_nil]
  have hrest : (c.skip n).rest = text := by
    rw [Cursor.rest_skip, h, List.drop_left' (List.length_replicate ..)]
  have hpeek : isBreak (c.skip n).peek = false := by
    cases text with
    | nil => rw [Cursor.peek, hrest]; decide
    | cons ch rest => rw [Cursor.peek_of_cons hrest]; exact hbreak ch rfl
  rw [plainGap]
  simp only [htake, List.length_replicate]
  rw [Cursor.lineBreak?_eq_none hpeek]

/-! ## Chunks -/

theorem plainChunk_append {chunk rest : List Char}
    (hchunk : ∀ ch ∈ chunk, isPlainChar ch = true ∧ ch ≠ ' ') (hlast : chunk.getLast? ≠ some ':')
    (hrest : plainChunk false rest = []) : plainChunk false (chunk ++ rest) = chunk := by
  induction chunk with
  | nil => exact hrest
  | cons ch chunk ih =>
    obtain ⟨⟨hplain, hblank⟩, hchunk⟩ := List.forall_mem_cons.1 hchunk
    have hgap := isGap_eq_false hplain hblank
    cases chunk with
    | nil =>
      have hcolon : ch ≠ ':' := by simpa using hlast
      rw [List.singleton_append, plainChunk]
      simp [hgap, hcolon, hrest]
    | cons next chunk =>
      obtain ⟨hplain', hblank'⟩ := hchunk next List.mem_cons_self
      have hgap' := isGap_eq_false hplain' hblank'
      rw [List.cons_append, plainChunk, ih hchunk (by simpa using hlast)]
      simp [hgap, hgap']

section Chunks

variable {margin limit : Nat} {gap next : Scanned} {c : Cursor} {chunk rest : List Char}

theorem plainChunks_chunk (h : gap.cursor.rest = chunk ++ rest) (hne : chunk ≠ [])
    (hmark : chunk.head? ≠ some '#') (hchunk : plainChunk false (chunk ++ rest) = chunk)
    (hfirst : gap.cursor.skip chunk.length = c) (hgap : plainGap c = next) :
    plainChunks false margin gap (limit + 1) =
      let more :=
        if next.text.isEmpty || next.cursor.column < margin then { next with text := [] }
        else plainChunks false margin next limit
      { more with text := gap.text ++ chunk ++ more.text } := by
  have hpeek : gap.cursor.peek ≠ '#' := by
    obtain ⟨ch, chunk, rfl⟩ := List.exists_cons_of_ne_nil hne
    rw [Cursor.peek_of_cons h]
    simpa using hmark
  rw [plainChunks]
  simp only [hpeek, h, hchunk, hfirst, hgap, List.isEmpty_eq_false_iff.2 hne, Bool.false_eq_true,
    if_false, Bool.not_false, Bool.true_and]

/-- The last chunk. -/
theorem plainChunks_stop (h : gap.cursor.rest = chunk ++ rest) (hne : chunk ≠ [])
    (hmark : chunk.head? ≠ some '#') (hchunk : plainChunk false (chunk ++ rest) = chunk)
    (hfirst : gap.cursor.skip chunk.length = c) (hgap : plainGap c = next)
    (hstop : next.text = [] ∨ next.cursor.column < margin) :
    plainChunks false margin gap (limit + 1) = ⟨gap.text ++ chunk, next.cursor, next.newLine⟩ := by
  have hends : (next.text.isEmpty || decide (next.cursor.column < margin)) = true := by
    simpa using hstop
  rw [plainChunks_chunk h hne hmark hchunk hfirst hgap]
  simp only [hends, if_true, List.append_nil]

/-- A chunk and a gap, and the rest of the scalar. -/
theorem plainChunks_step (limit : Nat) (h : gap.cursor.rest = chunk ++ rest) (hne : chunk ≠ [])
    (hmark : chunk.head? ≠ some '#') (hchunk : plainChunk false (chunk ++ rest) = chunk)
    (hfirst : gap.cursor.skip chunk.length = c) (hgap : plainGap c = next) (htext : next.text ≠ [])
    (hcolumn : margin ≤ next.cursor.column) :
    plainChunks false margin gap (limit + 1) =
      let more := plainChunks false margin next limit
      { more with text := gap.text ++ chunk ++ more.text } := by
  have hgoes : (next.text.isEmpty || decide (next.cursor.column < margin)) = false := by
    simpa using ⟨htext, hcolumn⟩
  rw [plainChunks_chunk h hne hmark hchunk hfirst hgap]
  simp only [hgoes, Bool.false_eq_true, if_false]

end Chunks

/-- **A key is read up to its colon.** -/
theorem scanPlain_key {c : Cursor} {margin : Nat} {key rest : List Char}
    (h : c.rest = key ++ ':' :: rest) (hne : key ≠ [])
    (hkey : ∀ ch ∈ key, isPlainChar ch = true ∧ ch ≠ ' ' ∧ ch ≠ '#' ∧ ch ≠ ':')
    (hrest : isGap (rest.headD endMark) = true) :
    scanPlain false margin c = ⟨key, c.skip key.length, false⟩ := by
  have hstop : plainChunk false (':' :: rest) = [] := by
    simp only [plainChunk, hrest, decide_true, Bool.true_or, Bool.and_self, Bool.or_true, if_true]
  have hgap : plainGap (c.skip key.length) = ⟨[], c.skip key.length, false⟩ :=
    plainGap_of_blanks (n := 0) (Cursor.rest_skip_of_append key h) (by simp) (by simp [isBreak])
  have hmark : key.head? ≠ some '#' := fun hhead => (hkey _ (List.mem_of_mem_head? hhead)).2.2.1 rfl
  have hchunk : plainChunk false (key ++ ':' :: rest) = key :=
    plainChunk_append (fun ch hch => ⟨(hkey ch hch).1, (hkey ch hch).2.1⟩)
      (fun hlast => (hkey _ (List.mem_of_mem_getLast? hlast)).2.2.2 rfl) hstop
  exact plainChunks_stop (c := c.skip key.length) h hne hmark hchunk rfl hgap (.inl rfl)

/-! ## Plain texts -/

/-- What a plain text may hold behind its first character. -/
structure PlainTail (cs : List Char) : Prop where
  plain : ∀ c ∈ cs, isPlainChar c = true
  last : cs.getLast? ≠ some ' ' ∧ cs.getLast? ≠ some ':'
  pairs : hasPair (fun a b => a = ':' && isGap b || isGap a && b = '#') cs = false

namespace PlainTail

variable {c : Char} {cs cs' : List Char}

theorem tail (h : PlainTail (c :: cs)) : PlainTail cs where
  plain := (List.forall_mem_cons.1 h.plain).2
  last := by
    cases cs with
    | nil => exact ⟨nofun, nofun⟩
    | cons d cs => simpa using h.last
  pairs := (hasPair_cons h.pairs).1

theorem append (h : PlainTail (cs ++ cs')) : PlainTail cs' := by
  induction cs with
  | nil => exact h
  | cons c cs ih => exact ih h.tail

/-- A blank is followed by something, but by no number sign. -/
theorem of_blank (h : PlainTail (' ' :: cs)) : cs ≠ [] ∧ cs.head? ≠ some '#' := by
  constructor
  · rintro rfl
    exact h.last.1 rfl
  · intro hhead
    simpa [isGap] using (hasPair_cons h.pairs).2 _ hhead

/-- A colon is followed by something, but by no blank. -/
theorem of_colon (h : PlainTail (':' :: cs)) : cs ≠ [] ∧ cs.head? ≠ some ' ' := by
  constructor
  · rintro rfl
    exact h.last.2 rfl
  · intro hhead
    simpa [isGap] using (hasPair_cons h.pairs).2 _ hhead

end PlainTail

theorem plainTail_of_allowsPlain {cs : List Char} (h : allowsPlain cs = true) : PlainTail cs := by
  simp only [allowsPlain, hasBlockedPair, Bool.and_eq_true, Bool.not_eq_true', decide_eq_true_eq,
    Bool.or_eq_false_iff, decide_eq_false_iff_not, List.all_eq_true] at h
  obtain ⟨⟨⟨⟨⟨hplain, -⟩, hlast⟩, -⟩, hpairs, hcolon⟩, -⟩ := h
  exact ⟨hplain, ⟨hlast, hcolon⟩, hpairs⟩

/-- A plain text begins with a character that begins nothing else. -/
theorem exists_of_allowsPlain {cs : List Char} (h : allowsPlain cs = true) :
    ∃ ch rest, cs = ch :: rest ∧ ch ≠ ' ' ∧ isGap ch = false ∧
      "#,[]\x7b\x7d&*!|>'\"%@\x60".toList.contains ch = false ∧
      ("?:-".toList.contains ch = true → isGap (rest.headD endMark) = false) := by
  simp only [allowsPlain, Bool.and_eq_true, Bool.not_eq_true', decide_eq_true_eq,
    List.all_eq_true] at h
  obtain ⟨⟨⟨⟨⟨hplain, hblank⟩, -⟩, hstart⟩, -⟩, -⟩ := h
  cases cs with
  | nil => cases hstart
  | cons ch rest =>
    obtain ⟨hblocked, hapart⟩ := Bool.or_eq_false_iff.1 hstart
    have hspace : ch ≠ ' ' := by simpa using hblank
    have hgap := isGap_eq_false (hplain ch List.mem_cons_self) hspace
    refine ⟨ch, rest, rfl, hspace, hgap, hblocked, fun hsign => ?_⟩
    rwa [hsign, Bool.true_and] at hapart

/-! ## Writing plain texts -/

theorem writePlain_of_ne {column : Nat} {before : Option Char} {c : Char} {cs : List Char}
    (h : c ≠ ' ') :
    writePlain column before (c :: cs) = c :: writePlain (column + 1) (some c) cs := by
  rw [writePlain]
  simp [h]

/-- A chunk is kept. -/
theorem writePlain_chunk (column : Nat) (before : Option Char) {chunk : List Char} (cs : List Char)
    (h : ∀ c ∈ chunk, c ≠ ' ') : ∃ column' before',
      writePlain column before (chunk ++ cs) = chunk ++ writePlain column' before' cs := by
  induction chunk generalizing column before with
  | nil => exact ⟨column, before, rfl⟩
  | cons c chunk ih =>
    obtain ⟨hc, hchunk⟩ := List.forall_mem_cons.1 h
    obtain ⟨column', before', hwrite⟩ := ih (column + 1) (some c) hchunk
    exact ⟨column', before', by rw [List.cons_append, writePlain_of_ne hc, hwrite]; rfl⟩

/-- Behind a blank no line is broken. -/
theorem writePlain_blanks (column n : Nat) (cs : List Char) :
    writePlain column (some ' ') (List.replicate n ' ' ++ cs) =
      List.replicate n ' ' ++ writePlain (column + n) (some ' ') cs := by
  induction n generalizing column with
  | zero => rfl
  | succ n ih =>
    rw [List.replicate_succ, List.cons_append, writePlain]
    simp [ih, Nat.add_right_comm, Nat.add_assoc]

/-- Blanks are kept, or one blank becomes the end of a line. -/
theorem writePlain_gap (column n : Nat) (before : Option Char) (cs : List Char) : ∃ column',
      writePlain column before (List.replicate (n + 1) ' ' ++ cs) =
        List.replicate (n + 1) ' ' ++ writePlain column' (some ' ') cs ∨
      n = 0 ∧ writePlain column before (List.replicate (n + 1) ' ' ++ cs) =
        '\n' :: (continuation ++ writePlain column' (some ' ') cs) := by
  rw [List.replicate_succ, List.cons_append, writePlain]
  split
  next hbroken =>
    cases n with
    | zero => exact ⟨_, .inr ⟨rfl, rfl⟩⟩
    | succ n =>
      rw [List.replicate_succ] at hbroken
      simp at hbroken
  next => exact ⟨_, .inl (by rw [writePlain_blanks]; rfl)⟩

/-! ## Reading plain texts -/

/-- A text that begins with a chunk: no chunk may end with a colon. -/
theorem exists_chunk {cs : List Char} (h : PlainTail cs) (hne : cs ≠ [])
    (hblank : cs.head? ≠ some ' ') :
    ∃ chunk n cs', cs = chunk ++ (List.replicate n ' ' ++ cs') ∧ chunk ≠ [] ∧
      (∀ c ∈ chunk, c ≠ ' ') ∧ chunk.getLast? ≠ some ':' ∧ cs'.head? ≠ some ' ' ∧
      (n = 0 → cs' = []) := by
  obtain ⟨n, cs', hrest, hcs'⟩ := exists_run ' ' (cs.dropWhile (· ≠ ' '))
  have hcs : cs = cs.takeWhile (· ≠ ' ') ++ (List.replicate n ' ' ++ cs') := by
    rw [← hrest, List.takeWhile_append_dropWhile]
  have hchunk : cs.takeWhile (· ≠ ' ') ≠ [] := by
    obtain ⟨c, cs, rfl⟩ := List.exists_cons_of_ne_nil hne
    rw [List.takeWhile_cons_of_pos (by simpa using hblank)]
    exact List.cons_ne_nil _ _
  have hstop : n = 0 → cs' = [] := by
    rintro rfl
    by_contra hne
    obtain ⟨c, cs', rfl⟩ := List.exists_cons_of_ne_nil hne
    have hhead := List.head?_dropWhile_not (· ≠ ' ') cs
    rw [hrest] at hhead
    simp at hhead
    exact hcs' (congrArg some hhead)
  have hapart : ∀ c ∈ cs.takeWhile (· ≠ ' '), c ≠ ' ' := fun c hc => by
    simpa using List.mem_takeWhile_imp hc
  refine ⟨_, n, cs', hcs, hchunk, hapart, fun hlast => ?_, hcs', hstop⟩
  rw [hcs, ← List.dropLast_append_getLast? _ hlast, List.append_assoc] at h
  obtain ⟨hne, hhead⟩ := h.append.of_colon
  cases n with
  | zero =>
    rw [hstop rfl] at hne
    exact hne rfl
  | succ n => exact hhead rfl

/-- The gap behind a chunk stands for the blanks, whether a line is broken there or not. -/
theorem plainGap_writePlain {c : Cursor} {column n : Nat} {before : Option Char} {d : Char}
    {ds rest : List Char} (hd : isGap d = false)
    (hc : c.rest =
      writePlain column before (List.replicate (n + 1) ' ' ++ d :: ds) ++ '\n' :: rest) :
    ∃ next column', plainGap c = next ∧ plainChunk false c.rest = [] ∧
      next.text = List.replicate (n + 1) ' ' ∧
      next.cursor.rest = writePlain column' (some ' ') (d :: ds) ++ '\n' :: rest ∧
      c.line ≤ next.cursor.line ∧ 1 ≤ next.cursor.column ∧
      next.cursor.rest.length ≤ c.rest.length := by
  have hblank : d ≠ ' ' := by
    rintro rfl
    exact absurd hd (by decide)
  have hshort : ∀ k, (c.skip k).rest.length ≤ c.rest.length := fun k => by
    rw [Cursor.rest_skip, List.length_drop]
    exact Nat.sub_le _ _
  obtain ⟨column', hkept | ⟨rfl, hbroken⟩⟩ := writePlain_gap column n before (d :: ds)
  · rw [hkept, List.append_assoc, writePlain_of_ne hblank] at hc
    have hgap := plainGap_of_blanks hc (by simpa using hblank)
      (by simpa using (not_isPad_of_not_isGap hd).2)
    have hskip := Cursor.skip_of_plain _ hc (by simp +contextual [isPlainChar])
    rw [List.length_replicate] at hskip
    refine ⟨_, column', hgap, by rw [hc]; rfl, rfl, ?_, c.line_le_skip _, ?_, hshort _⟩
    · rw [hskip, writePlain_of_ne hblank]
    · rw [hskip]
      exact Nat.le_add_left 1 _
  · rw [hbroken, List.cons_append, List.append_assoc] at hc
    have hskip : c.skip 3 = c.next.skip continuation.length := rfl
    rw [Cursor.skip_of_plain _ (Cursor.rest_next_of_cons hc)
      (forall_mem_of_all (by decide))] at hskip
    have hopens : Opens (writePlain column' (some ' ') (d :: ds) ++ '\n' :: rest) := by
      rw [writePlain_of_ne hblank]
      exact opens_of_not_isGap hd _
    have hnext := Cursor.next_of_newline hc
    refine ⟨_, column', plainGap_of_fold hc hopens, by rw [hc]; rfl, rfl, ?_, c.line_le_skip _, ?_,
      hshort _⟩
    · rw [hskip]
    · rw [hskip]
      exact Nat.le_add_left 1 _

/-- A plain text reads back up to the end of its line. -/
theorem plainChunks_writePlain {gap : Scanned} {column limit : Nat} {before : Option Char}
    {cs rest : List Char} (h : PlainTail cs) (hne : cs ≠ []) (hblank : cs.head? ≠ some ' ')
    (hmark : cs.head? ≠ some '#')
    (hc : gap.cursor.rest = writePlain column before cs ++ '\n' :: rest) (hrest : BeginsLine rest)
    (hlimit : gap.cursor.rest.length < limit) : ∃ c' : Cursor,
      plainChunks false 1 gap limit = ⟨gap.text ++ cs, c', true⟩ ∧ c'.rest = rest ∧
        gap.cursor.line < c'.line ∧ c'.column = 0 := by
  -- the induction is on the limit; each round takes a chunk and the gap behind it
  induction limit generalizing gap column before cs with
  | zero => exact absurd hlimit (Nat.not_lt_zero _)
  | succ limit ih =>
    obtain ⟨chunk, n, cs', rfl, hchunk, hapart, hcolon, hcs', hstop⟩ := exists_chunk h hne hblank
    obtain ⟨column', before', hwrite⟩ :=
      writePlain_chunk column before (List.replicate n ' ' ++ cs') hapart
    rw [hwrite, List.append_assoc] at hc
    have hplain : ∀ c ∈ chunk, isPlainChar c = true ∧ c ≠ ' ' := fun c hc =>
      ⟨h.plain c (List.mem_append_left _ hc), hapart c hc⟩
    rw [List.head?_append_of_ne_nil _ hchunk] at hmark
    have hbehind := Cursor.rest_skip_of_append _ hc
    have hline := gap.cursor.line_le_skip chunk.length
    generalize hfirst : gap.cursor.skip chunk.length = c at hbehind hline
    cases n with
    | zero =>
      rw [hstop rfl] at hc hbehind ⊢
      have hnext := Cursor.next_of_newline hbehind
      have hread : plainChunks false 1 gap (limit + 1) = ⟨gap.text ++ chunk, c.next, true⟩ :=
        plainChunks_stop hc hchunk hmark (plainChunk_append hplain hcolon rfl) hfirst
          (plainGap_of_end hbehind hrest) (.inr (by rw [hnext]; exact Nat.one_pos))
      refine ⟨c.next, by simpa using hread, ?_, ?_, ?_⟩
      · rw [hnext]
      · rw [hnext]
        exact Nat.lt_succ_of_le hline
      · rw [hnext]
    | succ n =>
      have htail : PlainTail (' ' :: cs') := by
        have := h.append
        rw [List.replicate_succ', List.append_assoc] at this
        exact this.append
      obtain ⟨hne', hmark'⟩ := htail.of_blank
      obtain ⟨d, ds, rfl⟩ := List.exists_cons_of_ne_nil hne'
      have hd : isGap d = false := isGap_eq_false (htail.tail.plain d List.mem_cons_self)
        (by simpa using hcs')
      obtain ⟨next, column'', hgap, hends, htext, hnext, hbelow, hcolumn, hlength⟩ :=
        plainGap_writePlain hd hbehind
      have hshort : next.cursor.rest.length < limit := by
        have hpos := List.length_pos_iff.2 hchunk
        have hall := congrArg List.length hc
        rw [← hbehind, List.length_append] at hall
        omega
      obtain ⟨c', hread, hrest', hless, hzero⟩ := ih htail.tail hne' hcs' hmark' hnext hshort
      rw [hbehind] at hends
      have hstep := plainChunks_step limit hc hchunk hmark (plainChunk_append hplain hcolon hends)
        hfirst hgap (by rw [htext]; simp) hcolumn
      rw [hread] at hstep
      refine ⟨c', ?_, hrest', Nat.lt_of_le_of_lt (Nat.le_trans hline hbelow) hless, hzero⟩
      rw [hstep, htext]
      simp

/-- **What is written without quotes reads back**, up to the end of its line. -/
theorem scanPlain_writePlain {c : Cursor} {column : Nat} {before : Option Char}
    {cs rest : List Char} (h : allowsPlain cs = true)
    (hc : c.rest = writePlain column before cs ++ '\n' :: rest) (hrest : BeginsLine rest) :
    ∃ c' : Cursor, scanPlain false 1 c = ⟨cs, c', true⟩ ∧ c'.rest = rest ∧ c.line < c'.line ∧
      c'.column = 0 := by
  obtain ⟨ch, rest', rfl, hblank, -, hblocked, -⟩ := exists_of_allowsPlain h
  refine plainChunks_writePlain (plainTail_of_allowsPlain h) (List.cons_ne_nil _ _)
    (by simpa using hblank) ?_ hc hrest (Nat.lt_succ_self _)
  rintro ⟨⟩
  exact absurd hblocked (by decide)

end CrudSchema.Yaml
