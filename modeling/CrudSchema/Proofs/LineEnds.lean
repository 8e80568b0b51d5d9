import CrudSchema.Proofs.Commands
import CrudSchema.Proofs.Spelling

/-!
# What is written is read as it is

Reading a file turns every line end into a line feed, so a text comes back from its file unless a
carriage return is in it (`Text.decodeLines_toUTF8`). A written schema has none: names are legal,
and descriptions with one are written with escapes.

Main result: `Schema.decodeLines_print`.
-/

namespace CrudSchema

/-! ## Line ends -/

namespace Text

theorem unifyNewlines_of_not_mem {cs : List Char} (h : '\r' ∉ cs) : unifyNewlines cs = cs := by
  induction cs with
  | nil => rfl
  | cons c rest ih =>
    simp only [List.mem_cons, not_or] at h
    rw [unifyNewlines, ih h.2]
    · rintro rest' rfl
      exact absurd rfl h.1
    · exact fun hc => h.1 hc.symm

/-- A text without carriage returns is what its bytes are read as. -/
theorem decodeLines_toUTF8 {s : String} (h : '\r' ∉ s.toList) : decodeLines s.toUTF8 = .ok s := by
  rw [decodeLines, CommandLine.Text.decode_toUTF8, Except.map, unifyNewlines_of_not_mem h,
    String.ofList_toList]

theorem return_not_mem_join {pieces : List (List Char)} (h : ∀ piece ∈ pieces, '\r' ∉ piece) :
    '\r' ∉ join '\n' pieces := by
  induction pieces with
  | nil => exact List.not_mem_nil
  | cons piece more ih =>
    obtain ⟨hpiece, hmore⟩ := List.forall_mem_cons.1 h
    cases more with
    | nil => exact hpiece
    | cons second others =>
      have hjoin : join '\n' (piece :: second :: others) =
          piece ++ '\n' :: join '\n' (second :: others) := rfl
      rw [hjoin]
      simpa using ⟨hpiece, ih hmore⟩

end Text

open Schema Sdl Text

/-! ## Names and types of positions -/

theorem IsName.return_not_mem {n : String} (h : IsName n) : '\r' ∉ n.toList :=
  fun hc => absurd (h.continues hc) (by decide)

theorem return_not_mem_render {type : WrappedType} (h : IsName type.innermost) :
    '\r' ∉ type.render.toList := by
  induction type with
  | named n => exact h.return_not_mem
  | list item ih => simpa [WrappedType.render] using ih h
  | nonNull type ih => simpa [WrappedType.render] using ih h

theorem return_not_mem_printTyped {name : String} {type : WrappedType} (hname : IsName name)
    (h : IsName type.innermost) : '\r' ∉ (printTyped name type).toList := by
  simpa [printTyped] using ⟨hname.return_not_mem, return_not_mem_render h⟩

/-! ## Descriptions -/

theorem return_not_mem_hexDigits (n : Nat) (width : Nat) : '\r' ∉ hexDigits true width n := by
  have hdigit : ∀ d < 16, hexDigit true d ≠ '\r' := by decide
  induction width generalizing n with
  | zero => exact List.not_mem_nil
  | succ w ih =>
    rw [hexDigits]
    simpa using ⟨ih (n / 16), (hdigit (n % 16) (Nat.mod_lt _ (by decide))).symm⟩

theorem return_not_mem_escapeChar (c : Char) : '\r' ∉ escapeChar c := by
  unfold escapeChar
  split
  · decide
  · decide
  · decide
  · decide
  · decide
  next hreturn _ =>
    split
    · decide
    · split
      · decide
      · split
        · simpa using return_not_mem_hexDigits c.toNat 4
        · simpa using fun h => hreturn h.symm

theorem mem_of_mem_escapeQuotes {c : Char} {cs : List Char} (hc : c ≠ '\\')
    (h : c ∈ BlockString.escapeQuotes cs) : c ∈ cs := by
  induction cs using BlockString.escapeQuotes.induct with
  | case1 rest ih =>
    rw [BlockString.escapeQuotes] at h
    simp only [List.mem_cons, hc, false_or] at h ⊢
    exact h.imp_right (Or.imp_right (Or.imp_right ih))
  | case2 d rest hplain ih =>
    rw [BlockString.escapeQuotes_cons (BlockString.not_opens_of_not_match hplain)] at h
    exact (List.mem_cons.1 h).elim (fun heq => heq ▸ List.mem_cons_self)
      fun hmem => List.mem_cons_of_mem _ (ih hmem)
  | case3 => cases h

/-- A block string is written only for what has no control characters but line feeds and tabs. -/
theorem return_not_mem_of_isPrintable {s : String} (h : BlockString.isPrintable s = true) :
    '\r' ∉ s.toList := by
  rw [BlockString.isPrintable, Bool.or_eq_true] at h
  rcases h with hempty | hprintable
  · rw [List.isEmpty_iff.1 hempty]
    exact List.not_mem_nil
  · simp only [Bool.and_eq_true, List.all_eq_true] at hprintable
    exact fun hc => absurd (hprintable.1.1.1 _ hc) (by decide)

theorem return_not_mem_describedText (s : String) : '\r' ∉ describedText s := by
  rw [describedText]
  split
  next hprintable =>
    have hquotes : '\r' ∉ BlockString.escapeQuotes s.toList := fun h =>
      return_not_mem_of_isPrintable hprintable (mem_of_mem_escapeQuotes (by decide) h)
    have hend : ∀ b : Bool, '\r' ∉ (if b then ['\n'] else []) := by decide
    rw [BlockString.print]
    simp only [List.mem_append, not_or]
    exact ⟨⟨⟨⟨by decide, hend _⟩, hquotes⟩, hend _⟩, by decide⟩
  next =>
    rw [quotedText]
    simpa using fun c _ => return_not_mem_escapeChar c

theorem return_not_mem_description (description : Option String) {indentation : List Char}
    (hblank : ∀ c ∈ indentation, c = ' ') (first : Bool) :
    '\r' ∉ printDescription description indentation first := by
  have hindent : '\r' ∉ indentation := fun h => absurd (hblank _ h) (by decide)
  cases description with
  | none => exact List.not_mem_nil
  | some s =>
    have hlines : '\r' ∉ indentLines indentation (describedText s) := by
      intro h
      obtain ⟨c, hc, hmem⟩ := List.mem_flatMap.1 h
      split at hmem
      · simp [hindent] at hmem
      · exact return_not_mem_describedText s (List.mem_singleton.1 hmem ▸ hc)
    have hgap : ∀ b : Bool, '\r' ∉ (if b then ['\n'] else []) := by decide
    rw [printDescription]
    simp only [List.mem_append, not_or]
    exact ⟨⟨⟨hgap _, hindent⟩, hlines⟩, by decide⟩

/-! ## Types -/

theorem return_not_mem_members {α : Type} {member : Bool → α → List Char} {l : List α}
    (h : ∀ a ∈ l, ∀ first, '\r' ∉ member first a) : ∀ m ∈ printMembers member l, '\r' ∉ m := by
  cases l with
  | nil => simp [printMembers]
  | cons a rest =>
    obtain ⟨ha, hrest⟩ := List.forall_mem_cons.1 h
    rw [printMembers, List.forall_mem_cons, List.forall_mem_map]
    exact ⟨ha true, fun b hb => hrest b hb false⟩

theorem return_not_mem_block {members : List (List Char)} (h : ∀ m ∈ members, '\r' ∉ m) :
    '\r' ∉ printBlock members := by
  rw [printBlock]
  split
  · exact List.not_mem_nil
  · simpa using return_not_mem_join h

theorem return_not_mem_intercalate {texts : List String} (h : ∀ text ∈ texts, '\r' ∉ text.toList) :
    '\r' ∉ (", ".intercalate texts).toList := by
  induction texts with
  | nil => exact List.not_mem_nil
  | cons text rest ih =>
    obtain ⟨htext, hrest⟩ := List.forall_mem_cons.1 h
    cases rest with
    | nil => simpa using htext
    | cons second others =>
      rw [String.intercalate_cons_cons, String.toList_append, String.toList_append]
      simp only [List.mem_append, not_or]
      exact ⟨⟨htext, by decide⟩, ih hrest⟩

theorem return_not_mem_arguments {arguments : NameMap WrappedType}
    (h : ReadableArguments arguments) :
    '\r' ∉ (printArguments arguments).toList := by
  rw [printArguments]
  split
  · decide
  · have hopen : '\r' ∉ "(".toList := by decide
    have hclose : '\r' ∉ ")".toList := by decide
    simp only [String.toList_append, List.mem_append, not_or]
    refine ⟨⟨hopen, return_not_mem_intercalate (List.forall_mem_map.2 fun a ha => ?_)⟩, hclose⟩
    exact return_not_mem_printTyped (h a ha).1 (h a ha).2.isName

theorem return_not_mem_field {e : String × OutputField} (hname : IsName e.1)
    (htype : e.2.type.Readable) (harguments : ReadableArguments e.2.arguments) (first : Bool) :
    '\r' ∉ printField first e := by
  have hdescription := return_not_mem_description e.2.description blank_indent first
  have hresult := return_not_mem_render htype.isName
  have hcall := return_not_mem_arguments harguments
  have hblank : '\r' ∉ indent := by decide
  simpa [printField] using
    ⟨hdescription, hblank, hname.return_not_mem, hcall, hresult⟩

theorem return_not_mem_inputField {e : String × InputTypeField} (hname : IsName e.1)
    (htype : e.2.type.Readable) (first : Bool) : '\r' ∉ printInputField first e := by
  have hdescription := return_not_mem_description e.2.description blank_indent first
  have hfield := return_not_mem_printTyped hname htype.isName
  have hblank : '\r' ∉ indent := by decide
  simpa [printInputField] using ⟨hdescription, hblank, hfield⟩

theorem return_not_mem_definition (description : Option String) {word name : String}
    {members : List (List Char)} (hword : '\r' ∉ word.toList) (hname : IsName name)
    (h : ∀ m ∈ members, '\r' ∉ m) :
    '\r' ∉ printDescription description [] true ++ (word ++ name).toList ++ printBlock members := by
  have hdescription := return_not_mem_description description (List.forall_mem_nil _) true
  simpa using ⟨hdescription, hword, hname.return_not_mem, return_not_mem_block h⟩

theorem return_not_mem_type {t : NamedType} (h : t.Readable) {block : List Char}
    (hblock : printType t = some block) : '\r' ∉ block := by
  cases t with
  | scalar kind => cases hblock
  | object o =>
    obtain ⟨hname, -, hfields⟩ := h
    obtain rfl := Option.some.inj hblock
    exact return_not_mem_definition _ (by decide) hname (return_not_mem_members fun e he =>
      return_not_mem_field (hfields e he).1 (hfields e he).2.1 (hfields e he).2.2)
  | enum e =>
    obtain ⟨hname, -, hvalues⟩ := h
    obtain rfl := Option.some.inj hblock
    refine return_not_mem_definition _ (by decide) hname (List.forall_mem_map.2 fun v hv => ?_)
    have hblank : '\r' ∉ indent := by decide
    simpa using ⟨hblank, (hvalues v hv).1.return_not_mem⟩
  | input i =>
    obtain ⟨hname, -, hfields⟩ := h
    obtain rfl := Option.some.inj hblock
    exact return_not_mem_definition _ (by decide) hname (return_not_mem_members fun e he =>
      return_not_mem_inputField (hfields e he).1 (hfields e he).2)

theorem return_not_mem_joinBlocks {blocks : List (List Char)} (h : ∀ block ∈ blocks, '\r' ∉ block) :
    '\r' ∉ joinBlocks blocks := by
  induction blocks with
  | nil => exact List.not_mem_nil
  | cons block more ih =>
    obtain ⟨hblock, hmore⟩ := List.forall_mem_cons.1 h
    cases more with
    | nil => exact hblock
    | cons second others =>
      have hjoin : joinBlocks (block :: second :: others) =
          block ++ '\n' :: '\n' :: joinBlocks (second :: others) := rfl
      rw [hjoin]
      simpa using ⟨hblock, ih hmore⟩

theorem IsHeader.return_not_mem {header : String} (h : IsHeader header) : '\r' ∉ header.toList := by
  obtain rfl | ⟨cs, hcs, hline⟩ := h
  · exact List.not_mem_nil
  · rw [hcs]
    simpa using fun hmem => (hline _ hmem).2 rfl

theorem mem_of_mem_dropEndWhile {p : Char → Bool} {c : Char} {cs : List Char}
    (h : c ∈ dropEndWhile p cs) : c ∈ cs := by
  rw [dropEndWhile, List.mem_reverse] at h
  exact List.mem_reverse.1 ((List.dropWhile_suffix p).subset h)

namespace Schema

theorem return_not_mem_print {s : Schema} (h : s.Readable) {header : String}
    (hheader : IsHeader header) : '\r' ∉ (s.print header).toList := by
  have hbody : '\r' ∉ joinBlocks (s.types.filterMap printType) := by
    refine return_not_mem_joinBlocks fun block hblock => ?_
    obtain ⟨t, ht, hprint⟩ := List.mem_filterMap.1 hblock
    exact return_not_mem_type (h.types t ht) hprint
  have hwhole : '\r' ∉ (if header = "" then joinBlocks (s.types.filterMap printType)
      else header.toList ++ '\n' :: '\n' :: joinBlocks (s.types.filterMap printType)) := by
    split
    · exact hbody
    · simpa using ⟨hheader.return_not_mem, hbody⟩
  rw [print, String.toList_ofList, List.mem_append, not_or]
  exact ⟨fun hmem => hwhole (mem_of_mem_dropEndWhile hmem), by decide⟩

/-- **A file with a written schema is read as the text that was written.** -/
theorem decodeLines_print {s : Schema} (h : s.Readable) {header : String}
    (hheader : IsHeader header) :
    Text.decodeLines (s.print header).toUTF8 = .ok (s.print header) :=
  Text.decodeLines_toUTF8 (return_not_mem_print h hheader)

end Schema

end CrudSchema
