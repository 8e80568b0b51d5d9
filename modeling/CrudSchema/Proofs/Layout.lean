import CrudSchema.Proofs.Written

/-!
# The tokens of a written document

**Steps** (`Layout.settle`, `Reads`). Each step of a reader passes gaps, forgets what cannot be a
key any more, ends blocks and takes a word. Between two lines a reader may stand at either side of
the end of the line; it settles at the beginning of the next all the same (`Reads.of_newline`,
`Reads.of_line`).

Main result: `tokens_print`.
-/

namespace CrudSchema.Yaml

open Layout

/-! ## Steps -/

namespace Layout

/-- Pass gaps, forget what cannot be a key any more, and end blocks. -/
def settle (l : Layout) : Except Fault Layout := do
  let l := l.skipGaps (l.cursor.rest.length + 1)
  let l ← l.forget (isStale l.cursor)
  return l.closeBlocks l.cursor.column

theorem run_succ (l : Layout) (limit : Nat) : l.run (limit + 1) = l.settle.bind fun l =>
    if l.cursor.rest.isEmpty then l.finish else l.takeWord.bind fun l => l.run limit := by
  rw [run, settle]
  cases h : (l.skipGaps (l.cursor.rest.length + 1)).forget
    (isStale (l.skipGaps (l.cursor.rest.length + 1)).cursor) with
  | error e => simp only [bind, Except.bind]
  | ok l' => simp only [bind, Except.bind, pure, Except.pure]

/-- With words enough a reader comes to these tokens. -/
def Reads (l : Layout) (ts : List Token) : Prop :=
  ∀ limit, l.cursor.rest.length < limit → l.run limit = .ok ts

variable {l l₁ l₂ : Layout} {ts : List Token}

theorem Reads.finish (hsettle : l.settle = .ok l₁) (hend : l₁.cursor.rest = [])
    (hfinish : l₁.finish = .ok ts) : Reads l ts := by
  intro limit hlimit
  obtain ⟨limit, rfl⟩ := Nat.exists_eq_succ_of_ne_zero (Nat.ne_of_gt (Nat.zero_lt_of_lt hlimit))
  rw [run_succ, hsettle]
  simp only [Except.bind, hend, List.isEmpty_nil, if_true, hfinish]

theorem Reads.step (hsettle : l.settle = .ok l₁) (hne : l₁.cursor.rest ≠ [])
    (hword : l₁.takeWord = .ok l₂) (hlength : l₂.cursor.rest.length < l.cursor.rest.length)
    (h : Reads l₂ ts) : Reads l ts := by
  intro limit hlimit
  obtain ⟨limit, rfl⟩ := Nat.exists_eq_succ_of_ne_zero (Nat.ne_of_gt (Nat.zero_lt_of_lt hlimit))
  rw [run_succ, hsettle]
  simp only [Except.bind, List.isEmpty_eq_false_iff.2 hne, Bool.false_eq_true, if_false, hword]
  exact h limit (by omega)

/-- Two readers that settle at the same place read the same. -/
theorem Reads.of_settle (h : Reads l₁ ts) (hsettle : l.settle = l₁.settle)
    (hlength : l₁.cursor.rest.length ≤ l.cursor.rest.length) : Reads l ts := by
  intro limit hlimit
  obtain ⟨limit, rfl⟩ := Nat.exists_eq_succ_of_ne_zero (Nat.ne_of_gt (Nat.zero_lt_of_lt hlimit))
  rw [run_succ, hsettle, ← run_succ]
  exact h _ (by omega)

/-! ## Settling -/

/-- The block of the entries is open, or none is yet. -/
def IsOuter (columns : List Int) : Prop := columns = [] ∨ columns = [0]

variable {c : Cursor} {columns : List Int} {keyAllowed : Bool} {candidates : List Candidate}
  {tokens : List Token} {rest : List Char}

theorem closeBlocks_of_isOuter (h : IsOuter columns) (column : Nat) :
    closeBlocks ⟨c, 0, columns, keyAllowed, candidates, tokens⟩ column =
      ⟨c, 0, columns, keyAllowed, candidates, tokens⟩ := by
  have htake : columns.takeWhile (fun c => decide ((column : Int) < c)) = [] := by
    rcases h with rfl | rfl
    · rfl
    · rw [List.takeWhile_cons_of_neg (by simp)]
  rw [closeBlocks, inFlow]
  simp only [ne_eq, not_true_eq_false, decide_false, Bool.false_eq_true, if_false, htake,
    List.length_nil, List.drop_zero, List.replicate_zero, List.append_nil]

theorem skipLineEnd_of_apart (h : Apart rest) (hc : c.rest = rest) : c.skipLineEnd = c := by
  rw [Cursor.skipLineEnd, Cursor.skipWhile_of_apart h hc]
  simp only [(Cursor.peek_of_apart h hc).2.2, if_false]

theorem skipGaps_succ (l : Layout) (limit : Nat) : l.skipGaps (limit + 1) =
    match l.cursor.skipLineEnd.lineBreak? with
    | some (_, c) => skipGaps { l with cursor := c, keyAllowed := l.keyAllowed || !l.inFlow } limit
    | none => { l with cursor := l.cursor.skipLineEnd } := by
  rfl

theorem skipGaps_of_apart (h : Apart rest) (hc : c.rest = rest) (limit : Nat) :
    skipGaps ⟨c, 0, columns, keyAllowed, candidates, tokens⟩ (limit + 1) =
      ⟨c, 0, columns, keyAllowed, candidates, tokens⟩ := by
  rw [skipGaps_succ]
  simp only [skipLineEnd_of_apart h hc, Cursor.lineBreak?_eq_none (Cursor.peek_of_apart h hc).1]

/-- What can be forgotten is forgotten, and the rest is kept. -/
theorem forget_eq {which : Candidate → Bool}
    (h : ∀ k ∈ l.candidates, which k = true → k.required = false) :
    l.forget which = .ok { l with candidates := l.candidates.filter fun k => !which k } := by
  have hnone : (l.candidates.any fun k => which k && k.required) = false := by
    rw [List.any_eq_false]
    intro k hk hboth
    obtain ⟨hwhich, hrequired⟩ := Bool.and_eq_true_iff.1 hboth
    rw [h k hk hwhich] at hrequired
    cases hrequired
  rw [forget, hnone]
  rfl

/-- A reader at a word. -/
theorem settle_of_apart (h : Apart rest) (hc : c.rest = rest) (hcolumns : IsOuter columns)
    (hfresh : ∀ k ∈ candidates, isStale c k = false) :
    settle ⟨c, 0, columns, keyAllowed, candidates, tokens⟩ =
      .ok ⟨c, 0, columns, keyAllowed, candidates, tokens⟩ := by
  rw [settle]
  simp only [skipGaps_of_apart h hc]
  rw [forget_eq (fun k hk hstale => absurd hstale (by simp [hfresh k hk]))]
  have hkept : candidates.filter (fun k => !isStale c k) = candidates :=
    List.filter_eq_self.2 fun k hk => by simp [hfresh k hk]
  simp only [hkept, bind, Except.bind, pure, Except.pure, closeBlocks_of_isOuter hcolumns]

theorem settle_of_word (h : Apart rest) (hc : c.rest = rest) (hcolumns : IsOuter columns) :
    settle ⟨c, 0, columns, keyAllowed, [], tokens⟩ = .ok ⟨c, 0, columns, keyAllowed, [], tokens⟩ :=
  settle_of_apart h hc hcolumns fun _ hk => absurd hk List.not_mem_nil

theorem forgetOwn_nil : forgetOwn ⟨c, 0, columns, keyAllowed, [], tokens⟩ =
    .ok ⟨c, 0, columns, keyAllowed, [], tokens⟩ :=
  forget_eq fun _ hk => absurd hk List.not_mem_nil

/-- A reader at a blank before a word. -/
theorem settle_of_blank {ch : Char} (hc : c.rest = ' ' :: ch :: rest) (hgap : isGap ch = false)
    (hmark : ch ≠ '#') (hcolumns : IsOuter columns) :
    settle ⟨c, 0, columns, keyAllowed, [], tokens⟩ =
      .ok ⟨c.next, 0, columns, keyAllowed, [], tokens⟩ := by
  have hblank : ch ≠ ' ' := by
    rintro rfl
    exact absurd hgap (by decide)
  have hnext := Cursor.rest_next_of_cons hc
  have hskip : c.skipLineEnd = c.next := by
    have hwhile : c.skipWhile (· = ' ') = c.skip 1 :=
      Cursor.skipWhile_of_append [' '] hc (by simp) (by simpa using hblank)
    rw [Cursor.skipLineEnd, hwhile]
    simp only [Cursor.skip, Cursor.peek_of_cons hnext, hmark, if_false]
  have hbreak : c.next.lineBreak? = none :=
    Cursor.lineBreak?_eq_none (by rw [Cursor.peek_of_cons hnext, (not_isPad_of_not_isGap hgap).2])
  rw [settle, skipGaps_succ]
  simp only [hskip, hbreak]
  rw [forget_eq (fun k hk => absurd hk List.not_mem_nil)]
  simp only [List.filter_nil, bind, Except.bind, pure, Except.pure, closeBlocks_of_isOuter hcolumns]

/-- No key begins at any of these places any more once a line has ended. -/
def Idle (candidates : List Candidate) (line : Nat) : Prop :=
  ∀ k ∈ candidates, k.required = false ∧ k.line ≤ line

theorem idle_nil (line : Nat) : Idle [] line := fun _ hk => absurd hk List.not_mem_nil

theorem forget_idle {line : Nat} (h : Idle candidates line) (hline : line < c.line) :
    forget ⟨c, 0, columns, keyAllowed, candidates, tokens⟩ (isStale c) =
      .ok ⟨c, 0, columns, keyAllowed, [], tokens⟩ := by
  rw [forget_eq fun k hk _ => (h k hk).1]
  have hnone : candidates.filter (fun k => !isStale c k) = [] := by
    refine List.filter_eq_nil_iff.2 fun k hk => ?_
    have hless := Nat.lt_of_le_of_lt (h k hk).2 hline
    simp [isStale, Nat.ne_of_lt hless]
  rw [hnone]

/-- A reader at the beginning of a line. -/
theorem settle_of_line {line : Nat} (hc : c.rest = rest) (hrest : Apart rest)
    (hcandidates : Idle candidates line) (hline : line < c.line) (hcolumns : IsOuter columns) :
    settle ⟨c, 0, columns, keyAllowed, candidates, tokens⟩ =
      .ok ⟨c, 0, columns, keyAllowed, [], tokens⟩ := by
  rw [settle]
  simp only [skipGaps_of_apart hrest hc]
  rw [forget_idle hcandidates hline]
  simp only [bind, Except.bind, pure, Except.pure, closeBlocks_of_isOuter hcolumns]

/-- A reader at the end of a line. -/
theorem settle_of_newline (hc : c.rest = '\n' :: rest) (hrest : Apart rest)
    (hcandidates : Idle candidates c.line) (hcolumns : IsOuter columns) :
    settle ⟨c, 0, columns, keyAllowed, candidates, tokens⟩ =
      .ok ⟨c.next, 0, columns, true, [], tokens⟩ := by
  have hskip : c.skipLineEnd = c := by
    have hwhile : c.skipWhile (· = ' ') = c :=
      Cursor.skipWhile_of_append [] hc (by simp) (by decide)
    rw [Cursor.skipLineEnd, hwhile]
    simp only [Cursor.peek_of_cons hc, Char.reduceEq, if_false]
  have hnext := Cursor.next_of_newline hc
  have hgaps : skipGaps ⟨c, 0, columns, keyAllowed, candidates, tokens⟩ (c.rest.length + 1) =
      ⟨c.next, 0, columns, true, candidates, tokens⟩ := by
    rw [skipGaps_succ]
    simp only [hskip, Cursor.lineBreak?_of_newline hc, inFlow, hc, List.length_cons]
    simp only [ne_eq, not_true_eq_false, decide_false, Bool.not_false, Bool.or_true]
    exact skipGaps_of_apart hrest (Cursor.rest_next_of_cons hc) _
  rw [settle]
  simp only [hgaps]
  rw [forget_idle hcandidates (by rw [hnext]; exact Nat.lt_succ_self _)]
  simp only [bind, Except.bind, pure, Except.pure, closeBlocks_of_isOuter hcolumns]

theorem Reads.of_line {line : Nat} (hc : c.rest = rest) (hrest : Apart rest)
    (hcandidates : Idle candidates line) (hline : line < c.line) (hcolumns : IsOuter columns)
    (h : Reads ⟨c, 0, columns, keyAllowed, [], tokens⟩ ts) :
    Reads ⟨c, 0, columns, keyAllowed, candidates, tokens⟩ ts := by
  refine h.of_settle ?_ (Nat.le_refl _)
  rw [settle_of_line hc hrest hcandidates hline hcolumns, settle_of_word hrest hc hcolumns]

theorem Reads.of_newline (hc : c.rest = '\n' :: rest) (hrest : Apart rest)
    (hcandidates : Idle candidates c.line) (hcolumns : IsOuter columns)
    (h : Reads ⟨c.next, 0, columns, true, [], tokens⟩ ts) :
    Reads ⟨c, 0, columns, keyAllowed, candidates, tokens⟩ ts := by
  have hnext := Cursor.rest_next_of_cons hc
  refine h.of_settle ?_ ?_
  · rw [settle_of_newline hc hrest hcandidates hcolumns, settle_of_word hrest hnext hcolumns]
  · rw [hnext, hc]
    exact Nat.le_succ _

/-! ## Words -/

/-- A plain scalar can begin with a sign that does not stand alone. -/
theorem startsPlain_of_apart {ch : Char} (hflow : l.level = 0) (hpeek : l.cursor.peek = ch)
    (hgap : isGap ch = false)
    (hblocked : "#,[]\x7b\x7d&*!|>'\"%@\x60".toList.contains ch = false)
    (hapart : "?:-".toList.contains ch = true → isGap (l.cursor.peek 1) = false) :
    l.startsPlain = true := by
  have hmarks : ∀ d ∈ "-?:,[]\x7b\x7d#&*!|>'\"%@\x60".toList,
      "#,[]\x7b\x7d&*!|>'\"%@\x60".toList.contains d = true ∨ d = '-' ∨ d = '?' ∨ d = ':' :=
    forall_mem_of_all (by decide)
  rw [startsPlain, hpeek, inFlow, hflow]
  cases hindicator : isIndicator ch with
  | false => simp [hgap]
  | true =>
    rcases hmarks ch (List.contains_iff_mem.1 hindicator) with hmem | hsign
    · rw [hmem] at hblocked
      cases hblocked
    · have hnext : isGap (l.cursor.peek 1) = false :=
        hapart (by rcases hsign with rfl | rfl | rfl <;> decide)
      simp [hnext, hsign]

/-- A plain scalar begins where no other word does. -/
theorem takeWord_of_plain {ch : Char} (hflow : l.level = 0) (hpeek : l.cursor.peek = ch)
    (hgap : isGap ch = false)
    (hblocked : "#,[]\x7b\x7d&*!|>'\"%@\x60".toList.contains ch = false)
    (hapart : "?:-".toList.contains ch = true → isGap (l.cursor.peek 1) = false)
    (hmark : l.cursor.column = 0 → l.cursor.atMark '-' = false ∧ l.cursor.atMark '.' = false) :
    l.takeWord = l.takePlain := by
  have hnot : ∀ d ∈ "#,[]\x7b\x7d&*!|>'\"%@\x60".toList, ch ≠ d := by
    rintro d hd rfl
    rw [List.contains_iff_mem.2 hd] at hblocked
    cases hblocked
  have hstarts := startsPlain_of_apart hflow hpeek hgap hblocked hapart
  have hcolumn : ∀ mark, mark = '-' ∨ mark = '.' →
      (l.cursor.column = 0 && l.cursor.atMark mark) = false := by
    intro mark hmem
    rw [Bool.and_eq_false_iff, decide_eq_false_iff_not]
    by_cases h : l.cursor.column = 0
    · rcases hmem with rfl | rfl
      · exact .inr (hmark h).1
      · exact .inr (hmark h).2
    · exact .inl h
  have hsign : ∀ d, (d = '-' ∨ d = '?' ∨ d = ':') →
      (ch = d && isGap (l.cursor.peek 1)) = false := by
    intro d hd
    rw [Bool.and_eq_false_iff, decide_eq_false_iff_not]
    by_cases h : ch = d
    · subst h
      exact .inr (hapart (by rcases hd with rfl | rfl | rfl <;> decide))
    · exact .inl h
  rw [takeWord]
  simp only [hpeek]
  split
  · exact absurd rfl (hnot '[' (by decide))
  · exact absurd rfl (hnot '\x7b' (by decide))
  · exact absurd rfl (hnot ']' (by decide))
  · exact absurd rfl (hnot '\x7d' (by decide))
  · exact absurd rfl (hnot ',' (by decide))
  · exact absurd rfl (hnot '*' (by decide))
  · exact absurd rfl (hnot '&' (by decide))
  · exact absurd rfl (hnot '!' (by decide))
  · exact absurd rfl (hnot '\'' (by decide))
  · exact absurd rfl (hnot '"' (by decide))
  · simp [hcolumn, hsign, hnot '%' (by decide), hnot '|' (by decide),
      hnot '>' (by decide), hstarts, inFlow, hflow]

/-- Further in than the entries no key must begin. -/
theorem remember_of_inner (keyAllowed : Bool) (tokens : List Token) (hcolumn : c.column ≠ 0) :
    ∃ candidates, Idle candidates c.line ∧ remember ⟨c, 0, [0], keyAllowed, [], tokens⟩ =
      .ok ⟨c, 0, [0], keyAllowed, candidates, tokens⟩ := by
  cases keyAllowed with
  | false => exact ⟨[], idle_nil _, rfl⟩
  | true =>
    refine ⟨[⟨0, tokens.length, false, c.index, c.line, c.column⟩], ?_, ?_⟩
    · intro k hk
      rw [List.mem_singleton.1 hk]
      exact ⟨rfl, Nat.le_refl _⟩
    · have hinner : (0 : Int) ≠ c.column := by omega
      rw [remember]
      simp [forgetOwn_nil, bind, Except.bind, inFlow, column, hinner, pure, Except.pure]

/-! ## Lines -/

/-- The first character of a text that needs no quotes begins a plain scalar. -/
theorem takeWord_of_allowsPlain {column : Nat} {before : Option Char} {cs : List Char}
    (h : allowsPlain cs = true) (hflow : l.level = 0) (hcolumn : l.cursor.column ≠ 0)
    (hc : l.cursor.rest = writePlain column before cs ++ '\n' :: rest) :
    l.takeWord = l.takePlain := by
  obtain ⟨ch, cs, rfl, hblank, hgap, hblocked, hapart⟩ := exists_of_allowsPlain h
  rw [writePlain_of_ne hblank] at hc
  refine takeWord_of_plain hflow (Cursor.peek_of_cons hc) hgap hblocked ?_
    fun hzero => absurd hzero hcolumn
  intro hsign
  have hnext := hapart hsign
  rw [Cursor.peek_one_of_cons hc]
  cases cs with
  | nil => exact absurd hnext (by decide)
  | cons d cs =>
    have hd : d ≠ ' ' := by
      rintro rfl
      exact absurd hnext (by rw [List.headD_cons]; decide)
    rw [writePlain_of_ne hd]
    exact hnext

theorem takePlain_eq (keyAllowed : Bool) (tokens : List Token) {column : Nat} {cs : List Char}
    (h : allowsPlain cs = true) (hcolumn : c.column ≠ 0)
    (hc : c.rest = writePlain column none cs ++ '\n' :: rest) (hrest : BeginsLine rest) :
    ∃ c' candidates, c'.rest = rest ∧ c.line < c'.line ∧ c'.column = 0 ∧
      Idle candidates c.line ∧ takePlain ⟨c, 0, [0], keyAllowed, [], tokens⟩ =
        .ok ⟨c', 0, [0], true, candidates, tokens ++ [.scalar (String.ofList cs) true]⟩ := by
  obtain ⟨candidates, hidle, hremember⟩ := remember_of_inner keyAllowed tokens hcolumn
  obtain ⟨c', hscan, hrest', hline, hzero⟩ := scanPlain_writePlain h hc hrest
  refine ⟨c', candidates, hrest', hline, hzero, hidle, ?_⟩
  have hscan' : ∀ l : Layout, l.level = 0 → l.columns = [0] →
      scanPlain l.inFlow (l.column + 1).toNat c = ⟨cs, c', true⟩ := by
    rintro ⟨_, _, _, _, _, _⟩ rfl rfl
    exact hscan
  rw [takePlain, hremember]
  simp only [bind, Except.bind, hscan', pushScalar, push, pure, Except.pure]

theorem takeQuoted_eq (keyAllowed : Bool) (tokens : List Token) {quote : Char} {cs w : List Char}
    (hcolumn : c.column ≠ 0) (hc : c.rest = quote :: w)
    (hquotes : ∀ c' : Cursor, c'.rest = w → Quotes quote c' cs ('\n' :: rest)) :
    ∃ c' candidates, c'.rest = '\n' :: rest ∧ Idle candidates c'.line ∧
      takeQuoted ⟨c, 0, [0], keyAllowed, [], tokens⟩ =
        .ok ⟨c', 0, [0], false, candidates, tokens ++ [.scalar (String.ofList cs) false]⟩ := by
  obtain ⟨candidates, hidle, hremember⟩ := remember_of_inner keyAllowed tokens hcolumn
  obtain ⟨c', hrest, hline, hread⟩ := hquotes c.next (Cursor.rest_next_of_cons hc)
  have hscan : scanQuoted c = .ok ⟨cs, c', false⟩ := by
    rw [scanQuoted, Cursor.peek_of_cons hc]
    refine hread _ ?_
    rw [Cursor.rest_next_of_cons hc, hc]
    exact Nat.lt_succ_of_lt (Nat.lt_succ_self _)
  refine ⟨c', candidates, hrest, fun k hk => ⟨(hidle k hk).1, ?_⟩, ?_⟩
  · exact Nat.le_trans (hidle k hk).2 (Nat.le_trans c.line_le_next hline)
  · rw [takeQuoted, hremember]
    simp only [bind, Except.bind, hscan, pushScalar, push, pure, Except.pure]

theorem reads_quoted {leaf : Leaf} {quote : Char} {w : List Char}
    (hsettle : settle ⟨c, 0, [0], keyAllowed, [], tokens⟩ =
      .ok ⟨c.next, 0, [0], keyAllowed, [], tokens⟩)
    (hcolumn : c.next.column ≠ 0) (hnext : c.next.rest = quote :: w)
    (hquote : quote = '\'' ∨ quote = '"') (hplain : leaf.isPlain = false)
    (hlength : ('\n' :: rest).length < c.rest.length) (hrest : BeginsLine rest)
    (hquotes : ∀ c' : Cursor, c'.rest = w → Quotes quote c' leaf.content.toList ('\n' :: rest))
    (h : ∀ c' : Cursor, c'.rest = rest → c'.column = 0 →
      Reads ⟨c', 0, [0], true, [], tokens ++ [leaf.token]⟩ ts) :
    Reads ⟨c, 0, [0], keyAllowed, [], tokens⟩ ts := by
  have houter : IsOuter [0] := .inr rfl
  obtain ⟨c', candidates, hrest', hidle, htake⟩ :=
    takeQuoted_eq keyAllowed tokens hcolumn hnext hquotes
  have hword : takeWord ⟨c.next, 0, [0], keyAllowed, [], tokens⟩ =
      .ok ⟨c', 0, [0], false, candidates, tokens ++ [leaf.token]⟩ := by
    have htoken : Token.scalar (String.ofList leaf.content.toList) false = leaf.token := by
      rw [String.ofList_toList, Leaf.token, hplain]
    rw [takeWord, ← htoken, ← htake]
    simp only [Cursor.peek_of_cons hnext]
    rcases hquote with rfl | rfl <;> rfl
  have hzero : c'.next.column = 0 := by rw [Cursor.next_of_newline hrest']
  have hread := h c'.next (Cursor.rest_next_of_cons hrest') hzero
  exact Reads.step hsettle (by rw [hnext]; exact List.cons_ne_nil _ _) hword
    (by rw [hrest']; exact hlength) (hread.of_newline hrest' hrest.apart hidle houter)

/-- A leaf behind a blank, and the end of its line. -/
theorem reads_leaf {leaf : Leaf} {width : Nat}
    (hc : c.rest = ' ' :: (leaf.write width ++ '\n' :: rest)) (hrest : BeginsLine rest)
    (h : ∀ c' : Cursor, c'.rest = rest → c'.column = 0 →
      Reads ⟨c', 0, [0], true, [], tokens ++ [leaf.token]⟩ ts) :
    Reads ⟨c, 0, [0], keyAllowed, [], tokens⟩ ts := by
  have houter : IsOuter [0] := .inr rfl
  have hnext := Cursor.rest_next_of_cons hc
  have hcolumn : c.next.column ≠ 0 := by
    have hskip : c.next = _ := Cursor.skip_of_plain [' '] hc (forall_mem_of_all (by decide))
    rw [hskip]
    exact Nat.succ_ne_zero _
  obtain ⟨ch, w, hwrite, hgap, hmark⟩ := leaf.exists_write width
  have hsettle : settle ⟨c, 0, [0], keyAllowed, [], tokens⟩ =
      .ok ⟨c.next, 0, [0], keyAllowed, [], tokens⟩ := by
    rw [hwrite] at hc
    exact settle_of_blank hc hgap hmark houter
  have hne : c.next.rest ≠ [] := by
    rw [hnext, hwrite]
    exact List.cons_ne_nil _ _
  have hlength : ('\n' :: rest).length < c.rest.length := by
    rw [hc]
    simp only [List.length_cons, List.length_append]
    omega
  obtain ⟨hplain, hallows, hwrite⟩ | ⟨hplain, hallows, hwrite⟩ | ⟨hplain, hwrite⟩ :=
    leaf.write_cases width
  · rw [hwrite] at hnext
    obtain ⟨c', candidates, hrest', hline, hzero, hidle, htake⟩ :=
      takePlain_eq keyAllowed tokens hallows hcolumn hnext hrest
    have hword : takeWord ⟨c.next, 0, [0], keyAllowed, [], tokens⟩ = _ :=
      (takeWord_of_allowsPlain hallows rfl hcolumn hnext).trans htake
    have htoken : Token.scalar (String.ofList leaf.content.toList) true = leaf.token := by
      rw [String.ofList_toList, Leaf.token, hplain]
    rw [htoken] at hword
    refine Reads.step hsettle hne hword ?_
      ((h c' hrest' hzero).of_line hrest' hrest.apart hidle hline houter)
    rw [hrest']
    exact Nat.lt_trans (Nat.lt_succ_self _) hlength
  · rw [hwrite, List.append_assoc] at hnext
    exact reads_quoted hsettle hcolumn hnext (.inl rfl) hplain hlength hrest
      (fun c' hc' => quotes_writeSingle none hallows nofun (by simp) hc') h
  · rw [hwrite, List.append_assoc] at hnext
    exact reads_quoted hsettle hcolumn hnext (.inr rfl) hplain hlength hrest
      (fun c' hc' => quotes_writeDouble _ (by simp) hc') h

/-! ## Keys and items -/

/-- What begins before the first key. -/
def opening (columns : List Int) : List Token := if columns.isEmpty then [.mappingStart] else []

theorem takePlain_key (columns : List Int) (tokens : List Token) {key : String} (hkey : IsKey key)
    {tail : List Char} (hc : c.rest = key.toList ++ ':' :: tail) (hcolumn : c.column = 0)
    (htail : isGap (tail.headD endMark) = true) :
    ∃ required, takePlain ⟨c, 0, columns, true, [], tokens⟩ =
      .ok ⟨c.skip key.toList.length, 0, columns, false,
        [⟨0, tokens.length, required, c.index, c.line, 0⟩], tokens ++ [.scalar key true]⟩ := by
  have hchars : ∀ ch ∈ key.toList,
      isPlainChar ch = true ∧ ch ≠ ' ' ∧ ch ≠ '#' ∧ ch ≠ ':' := by
    intro ch hch
    obtain ⟨hplain, hgap, hmark, -⟩ := of_isKeyChar (hkey.letters ch hch)
    refine ⟨hplain, ?_, ne_of_isIndicator hmark (by decide), ne_of_isIndicator hmark (by decide)⟩
    rintro rfl
    exact absurd hgap (by decide)
  have hscan : ∀ l : Layout, l.level = 0 →
      scanPlain l.inFlow (l.column + 1).toNat c =
        ⟨key.toList, c.skip key.toList.length, false⟩ := by
    rintro ⟨_, _, _, _, _, _⟩ rfl
    exact scanPlain_key hc hkey.ne_empty hchars htail
  refine ⟨decide (columns.headD (-1) = 0), ?_⟩
  rw [takePlain, remember]
  simp only [forgetOwn_nil, Bool.not_true, Bool.false_eq_true, if_false, bind, Except.bind, pure,
    Except.pure, hscan, pushScalar, push, String.ofList_toList, hcolumn]
  rfl

/-- The colon behind a key. -/
theorem takeWord_of_colon {tail : List Char} {required : Bool} {index line : Nat} {token : Token}
    (hcolumns : IsOuter columns) (hc : c.rest = ':' :: tail)
    (htail : isGap (tail.headD endMark) = true) :
    takeWord ⟨c, 0, columns, false, [⟨0, tokens.length, required, index, line, 0⟩],
        tokens ++ [token]⟩ =
      .ok ⟨c.next, 0, [0], false, [], tokens ++ opening columns ++ [.key, token, .value]⟩ := by
  have hpeek : isGap (c.peek 1) = true := by rw [Cursor.peek_one_of_cons hc, htail]
  have hword : takeWord ⟨c, 0, columns, false, [⟨0, tokens.length, required, index, line, 0⟩],
      tokens ++ [token]⟩ = takeValue ⟨c, 0, columns, false,
        [⟨0, tokens.length, required, index, line, 0⟩], tokens ++ [token]⟩ := by
    rw [takeWord]
    simp [Cursor.peek_of_cons hc, hpeek, Cursor.atMark, hc]
  rw [hword, takeValue]
  rcases hcolumns with rfl | rfl
  · simp [insert, openBlock, column, inFlow, pushPast, push, opening, Cursor.skip]
  · simp [insert, openBlock, column, inFlow, pushPast, push, opening, Cursor.skip]

/-- A key and its colon at the beginning of a line. -/
theorem reads_key {key : String} (hkey : IsKey key) {tail : List Char} (hcolumns : IsOuter columns)
    (hc : c.rest = key.toList ++ ':' :: tail) (hcolumn : c.column = 0)
    (htail : isGap (tail.headD endMark) = true)
    (h : ∀ c' : Cursor, c'.rest = tail → Reads ⟨c', 0, [0], false, [],
      tokens ++ opening columns ++ [.key, .scalar key true, .value]⟩ ts) :
    Reads ⟨c, 0, columns, true, [], tokens⟩ ts := by
  obtain ⟨ch, cs, hcs, hgap, hmark, hpoint⟩ := hkey.exists_cons
  have hfirst : c.rest = ch :: (cs ++ ':' :: tail) := by rw [hc, hcs]; rfl
  have hcolon := Cursor.rest_skip_of_append _ hc
  obtain ⟨required, htake⟩ := takePlain_key columns tokens hkey hc hcolumn htail
  -- the key
  have hword : takeWord ⟨c, 0, columns, true, [], tokens⟩ =
      takePlain ⟨c, 0, columns, true, [], tokens⟩ := by
    refine takeWord_of_plain (l := ⟨c, 0, columns, true, [], tokens⟩) rfl
      (Cursor.peek_of_cons hfirst) hgap (not_blocked_of_not_isIndicator hmark).1
      (fun hsign => ?_) fun _ => ?_
    · rw [(not_blocked_of_not_isIndicator hmark).2] at hsign
      cases hsign
    · have hdash : ch ≠ '-' := ne_of_isIndicator hmark rfl
      exact Bool.or_eq_false_iff.1 (Cursor.atDocumentMark_eq_false hfirst hdash hpoint)
  have hplace : settle ⟨c, 0, columns, true, [], tokens⟩ = .ok ⟨c, 0, columns, true, [], tokens⟩ :=
    settle_of_word (by rintro d ⟨⟩; exact ⟨hgap, ne_of_isIndicator hmark rfl⟩) hfirst hcolumns
  refine Reads.step hplace (by rw [hfirst]; exact List.cons_ne_nil _ _) (hword.trans htake) ?_ ?_
  · have hpositive : 0 < key.toList.length := by rw [hcs]; exact Nat.succ_pos _
    rw [hcolon, hc, List.length_append]
    omega
  -- the colon, which comes soon enough
  have hskip := Cursor.skip_of_plain _ hc fun ch hch => (of_isKeyChar (hkey.letters ch hch)).1
  have hfresh : isStale (c.skip key.toList.length)
      ⟨0, tokens.length, required, c.index, c.line, 0⟩ = false := by
    have hshort := hkey.short
    rw [hskip, isStale]
    simp only [ne_eq, not_true_eq_false, decide_false, Bool.false_or, decide_eq_false_iff_not]
    omega
  refine Reads.step
    (settle_of_apart (by rintro d ⟨⟩; decide) hcolon hcolumns (by simpa using hfresh))
    (by rw [hcolon]; exact List.cons_ne_nil _ _) (takeWord_of_colon hcolumns hcolon htail) ?_
    (h _ (Cursor.rest_next_of_cons hcolon))
  rw [hcolon, Cursor.rest_next_of_cons hcolon]
  exact Nat.lt_succ_self _

/-- An item at the column of its key. -/
theorem reads_item {leaf : Leaf} {width : Nat}
    (hc : c.rest = '-' :: ' ' :: (leaf.write width ++ '\n' :: rest)) (hrest : BeginsLine rest)
    (h : ∀ c' : Cursor, c'.rest = rest → c'.column = 0 →
      Reads ⟨c', 0, [0], true, [], tokens ++ [.item, leaf.token]⟩ ts) (hcolumn : c.column = 0) :
    Reads ⟨c, 0, [0], true, [], tokens⟩ ts := by
  have hplace : settle ⟨c, 0, [0], true, [], tokens⟩ = .ok ⟨c, 0, [0], true, [], tokens⟩ :=
    settle_of_word (by rintro d ⟨⟩; decide) hc (.inr rfl)
  have hopen : openBlock ⟨c, 0, [0], true, [], tokens⟩ c.column tokens.length .sequenceStart =
      ⟨c, 0, [0], true, [], tokens⟩ := by
    rw [openBlock, hcolumn]
    rfl
  have hword : takeWord ⟨c, 0, [0], true, [], tokens⟩ =
      .ok ⟨c.next, 0, [0], true, [], tokens ++ [.item]⟩ := by
    have hitem : takeWord ⟨c, 0, [0], true, [], tokens⟩ =
        takeItem ⟨c, 0, [0], true, [], tokens⟩ := by
      have hgap : isGap ' ' = true := by decide
      rw [takeWord]
      simp [Cursor.peek_of_cons hc, Cursor.peek_one_of_cons hc, Cursor.atMark, hc, hgap]
    have hflow : inFlow ⟨c, 0, [0], true, [], tokens⟩ = false := rfl
    rw [hitem, takeItem, takeBlockMark]
    simp only [hflow, Bool.not_true, Bool.and_false, Bool.false_eq_true, if_false, hopen,
      forgetOwn_nil, bind, Except.bind, pure, Except.pure]
    rfl
  refine Reads.step hplace (by rw [hc]; exact List.cons_ne_nil _ _) hword ?_ ?_
  · rw [hc, Cursor.rest_next_of_cons hc]
    exact Nat.lt_succ_self _
  · refine reads_leaf (Cursor.rest_next_of_cons hc) hrest fun c' hrest' hzero => ?_
    rw [List.append_assoc]
    exact h c' hrest' hzero

/-! ## Entries -/

theorem beginsLine_nil : BeginsLine [] := ⟨nofun, by decide⟩

theorem beginsLine_item (w : List Char) : BeginsLine ('-' :: ' ' :: w) :=
  ⟨by rintro d ⟨⟩; decide, by simp⟩

theorem beginsLine_key {key : String} (hkey : IsKey key) (w : List Char) :
    BeginsLine (key.toList ++ w) := by
  obtain ⟨ch, cs, hcs, hgap, hmark, hpoint⟩ := hkey.exists_cons
  have hdash : ch ≠ '-' := ne_of_isIndicator hmark rfl
  rw [hcs]
  exact ⟨by rintro d ⟨⟩; exact ⟨hgap, ne_of_isIndicator hmark rfl⟩, by simp [hdash, hpoint]⟩

theorem beginsLine_entry {key : String} (hkey : IsKey key) (e : Entry) (w : List Char) :
    BeginsLine (writeEntry key e ++ w) := by
  cases e with
  | leaf l =>
    rw [writeEntry, List.append_assoc, List.append_assoc]
    exact beginsLine_key hkey _
  | list items =>
    rw [writeEntry, List.append_assoc]
    exact beginsLine_key hkey _

/-- The items of a list. -/
def writeItems (items : List Leaf) : List Char :=
  items.flatMap fun l => '-' :: ' ' :: l.write 2 ++ ['\n']

theorem beginsLine_writeItems (items : List Leaf) (hrest : BeginsLine rest) :
    BeginsLine (writeItems items ++ rest) := by
  cases items with
  | nil => exact hrest
  | cons l items => exact beginsLine_item _

theorem reads_items {items : List Leaf} (hc : c.rest = writeItems items ++ rest)
    (hcolumn : c.column = 0) (hrest : BeginsLine rest)
    (h : ∀ c' : Cursor, c'.rest = rest → c'.column = 0 →
      Reads ⟨c', 0, [0], true, [], tokens ++ (Entry.list items).tokens⟩ ts) :
    Reads ⟨c, 0, [0], true, [], tokens⟩ ts := by
  induction items generalizing c tokens with
  | nil =>
    have h := h c hc hcolumn
    rwa [Entry.tokens, List.flatMap_nil, List.append_nil] at h
  | cons l items ih =>
    have hfirst : c.rest = '-' :: ' ' :: (l.write 2 ++ '\n' :: (writeItems items ++ rest)) := by
      rw [hc, writeItems, List.flatMap_cons, writeItems]
      simp
    refine reads_item hfirst (beginsLine_writeItems items hrest)
      (fun c₁ hrest₁ hzero₁ => ?_) hcolumn
    refine ih hrest₁ hzero₁ fun c' hrest' hzero' => ?_
    have h := h c' hrest' hzero'
    rwa [Entry.tokens, List.flatMap_cons, ← List.append_assoc] at h

/-- A key with its value. -/
theorem reads_entry {key : String} (hkey : IsKey key) {e : Entry} (hcolumns : IsOuter columns)
    (hc : c.rest = writeEntry key e ++ rest) (hcolumn : c.column = 0) (hrest : BeginsLine rest)
    (h : ∀ c' : Cursor, c'.rest = rest → c'.column = 0 →
      Reads ⟨c', 0, [0], true, [], tokens ++ opening columns ++ entryTokens key e⟩ ts) :
    Reads ⟨c, 0, columns, true, [], tokens⟩ ts := by
  cases e with
  | leaf l =>
    have hc' : c.rest = key.toList ++ ':' :: ' ' :: (l.write (key.length + 2) ++ '\n' :: rest) := by
      rw [hc, writeEntry]
      simp
    refine reads_key hkey hcolumns hc' hcolumn rfl fun c₁ hrest₁ => ?_
    refine reads_leaf hrest₁ hrest fun c' hrest' hzero => ?_
    have h := h c' hrest' hzero
    rwa [entryTokens, ← List.append_assoc] at h
  | list items =>
    have hc' : c.rest = key.toList ++ ':' :: '\n' :: (writeItems items ++ rest) := by
      rw [hc, writeEntry, writeItems]
      simp
    refine reads_key hkey hcolumns hc' hcolumn rfl fun c₁ hrest₁ => ?_
    have hzero : c₁.next.column = 0 := by rw [Cursor.next_of_newline hrest₁]
    have hitems := (beginsLine_writeItems items hrest).apart
    refine Reads.of_newline hrest₁ hitems (idle_nil _) (.inr rfl) ?_
    refine reads_items (Cursor.rest_next_of_cons hrest₁) hzero hrest fun c' hrest' hzero' => ?_
    have h := h c' hrest' hzero'
    rwa [entryTokens, ← List.append_assoc] at h

/-- The text of a document. -/
def writeEntries (entries : List (String × Entry)) : List Char :=
  entries.flatMap fun (key, e) => writeEntry key e

theorem reads_entries {entries : List (String × Entry)} (hkeys : ∀ e ∈ entries, IsKey e.1)
    (hc : c.rest = writeEntries entries) (hcolumn : c.column = 0) (hcolumns : IsOuter columns)
    (hopen : entries = [] → columns = [0]) :
    Reads ⟨c, 0, columns, true, [], tokens⟩ (tokens ++ opening columns ++
      entries.flatMap (fun (key, e) => entryTokens key e) ++ [.blockEnd, .streamEnd]) := by
  induction entries generalizing c columns tokens with
  | nil =>
    rw [hopen rfl]
    refine Reads.finish (settle_of_word beginsLine_nil.apart hc (.inr rfl)) hc ?_
    rw [Layout.finish, closeBlocks]
    simp [inFlow, forgetOwn, forget, bind, Except.bind, pure, Except.pure, opening]
  | cons entry entries ih =>
    obtain ⟨key, e⟩ := entry
    obtain ⟨hkey, hkeys⟩ := List.forall_mem_cons.1 hkeys
    have hrest : BeginsLine (writeEntries entries) := by
      cases entries with
      | nil => exact beginsLine_nil
      | cons entry entries => exact beginsLine_entry (hkeys _ List.mem_cons_self) _ _
    refine reads_entry hkey hcolumns hc hcolumn hrest fun c' hrest' hzero => ?_
    have h : Reads ⟨c', 0, [0], true, [], tokens ++ opening columns ++ entryTokens key e⟩ _ :=
      ih hkeys hrest' hzero (.inr rfl) fun _ => rfl
    simpa [opening] using h

end Layout

/-! ## Documents -/

theorem isAllowed_of_isWritten {cs : List Char} (h : IsWritten cs) : cs.all isAllowed = true := by
  rw [List.all_eq_true]
  intro c hc
  rcases h c hc with hplain | rfl
  · simp only [isPlainChar, Bool.and_eq_true, decide_eq_true_eq] at hplain
    simp [isAllowed, hplain]
  · decide

/-- A document does not begin with a byte order mark. -/
theorem skipMark_of_isWritten {cs : List Char} (h : IsWritten cs) :
    (⟨⟨cs, 0, 0, 0⟩, 0, [], true, [], []⟩ : Layout).skipMark =
      ⟨⟨cs, 0, 0, 0⟩, 0, [], true, [], []⟩ := by
  have hmark : (⟨cs, 0, 0, 0⟩ : Cursor).peek ≠ byteOrderMark := by
    cases cs with
    | nil => decide
    | cons c cs =>
      intro hc
      rw [Cursor.peek_of_cons rfl] at hc
      subst hc
      exact absurd (h _ List.mem_cons_self) (by decide)
  rw [Layout.skipMark]
  simp [hmark]

/-- **A document is read as its tokens.** -/
theorem tokens_print {entries : List (String × Entry)} (hne : entries ≠ [])
    (hkeys : ∀ e ∈ entries, IsKey e.1) : tokens (print entries) = .ok (documentTokens entries) := by
  have htext : (print entries).toList = Layout.writeEntries entries := by
    rw [print, String.toList_ofList]
    rfl
  have hwritten := htext ▸ isWritten_print hkeys
  have hreads : Layout.Reads ⟨⟨Layout.writeEntries entries, 0, 0, 0⟩, 0, [], true, [], []⟩
      (documentTokens entries) :=
    Layout.reads_entries hkeys rfl rfl (.inl rfl) fun hnone => absurd hnone hne
  rw [tokens, htext]
  simp only [isAllowed_of_isWritten hwritten, skipMark_of_isWritten hwritten, Bool.not_true,
    Bool.false_eq_true, if_false]
  exact hreads _ (Nat.lt_succ_self _)

end CrudSchema.Yaml
