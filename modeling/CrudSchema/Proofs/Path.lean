import CrudSchema.Path
import Mathlib.Data.List.Sort
import Mathlib.Data.String.Basic

/-!
# Laws of paths

**Spelling** (`ofText_text`). The spelling of a path is one of its spellings, so paths are told
apart by it (`text_inj`). A name that may be a part is the spelling of the path with this one part.

**Moving about** (`Below`). A path is below another one if it goes on from there without turning
back. What names lead to from a base is below it (`below_extend`), and what is below is led to by
names (`Below.exists_extend`).

**Order** (`mem_sorted`, `pairwise_sorted`). The paths of a list in order are strictly increasing,
and a strictly increasing list is determined by what is in it (`sorted_eq_iff`).
-/

namespace CrudSchema

/-! ## Texts cut at a separator -/

namespace Text

variable {separator : Char}

theorem split_of_not_mem {cs : List Char} (h : separator ∉ cs) : split separator cs = [cs] := by
  induction cs with
  | nil => rfl
  | cons c rest ih =>
    simp only [List.mem_cons, not_or] at h
    rw [split, if_neg (Ne.symm h.1), ih h.2]

theorem split_append_separator {cs : List Char} (h : separator ∉ cs) (rest : List Char) :
    split separator (cs ++ separator :: rest) = cs :: split separator rest := by
  induction cs with
  | nil => rw [List.nil_append, split, if_pos rfl]
  | cons c more ih =>
    simp only [List.mem_cons, not_or] at h
    rw [List.cons_append, split, if_neg (Ne.symm h.1), ih h.2]

/-- Pieces that were joined are cut apart again. -/
theorem split_join {pieces : List (List Char)} (hne : pieces ≠ [])
    (h : ∀ piece ∈ pieces, separator ∉ piece) :
    split separator (join separator pieces) = pieces := by
  induction pieces with
  | nil => exact absurd rfl hne
  | cons piece more ih =>
    simp only [List.mem_cons, forall_eq_or_imp] at h
    cases more with
    | nil => exact split_of_not_mem h.1
    | cons second others =>
      have hjoin : join separator (piece :: second :: others) =
          piece ++ separator :: join separator (second :: others) := rfl
      rw [hjoin, split_append_separator h.1, ih (List.cons_ne_nil _ _) h.2]

theorem join_prefix (separator : Char) (pieces more : List (List Char)) :
    join separator pieces <+: join separator (pieces ++ more) := by
  induction pieces with
  | nil => exact List.nil_prefix
  | cons piece rest ih =>
    cases rest with
    | nil =>
      cases more with
      | nil => exact List.prefix_rfl
      | cons second others => exact List.prefix_append _ _
    | cons second others =>
      rw [List.cons_append]
      exact (List.prefix_append_right_inj piece).2 (List.cons_prefix_cons.2 ⟨rfl, ih⟩)

end Text

namespace Path

variable {p q r : Path}

theorem ext_parts (hanchor : p.anchor = q.anchor) (hparts : p.parts = q.parts) : p = q := by
  cases p
  cases q
  cases hanchor
  cases hparts
  rfl

/-! ## Spelling -/

theorem partsOfText_slash (s : List Char) :
    partsOfText (String.ofList ('/' :: s)) = partsOfText (String.ofList s) := by
  simp [partsOfText, Text.split]

/-- Parts with slashes between them are the parts of what they spell. -/
theorem partsOfText_join {parts : List String} (h : ∀ s ∈ parts, IsPart s) :
    partsOfText (String.ofList (Text.join '/' (parts.map String.toList))) = parts := by
  cases parts with
  | nil => rfl
  | cons first more =>
    have hslash : ∀ piece ∈ (first :: more).map String.toList, '/' ∉ piece := by
      rintro _ hpiece
      obtain ⟨s, hs, rfl⟩ := List.mem_map.1 hpiece
      exact (h s hs).2.2
    rw [partsOfText, String.toList_ofList, Text.split_join (by simp) hslash, List.map_map,
      List.filter_eq_self.2]
    · simp [Function.comp_def]
    · intro s hs
      simp only [List.mem_map, Function.comp_apply, String.ofList_toList, exists_eq_right] at hs
      simpa using ⟨(h s hs).1, (h s hs).2.1⟩

/-- The spelling of parts does not begin with a slash. -/
theorem head?_join {parts : List String} (h : ∀ s ∈ parts, IsPart s) :
    (Text.join '/' (parts.map String.toList)).head? ≠ some '/' := by
  cases parts with
  | nil => nofun
  | cons first more =>
    obtain ⟨hne, -, hslash⟩ := h first List.mem_cons_self
    obtain ⟨c, rest, hfirst⟩ := List.exists_cons_of_ne_nil
      (mt (fun hnil : first.toList = [] => String.toList_inj.1 hnil) hne)
    have hc : c ≠ '/' := by
      rintro rfl
      exact hslash (hfirst ▸ List.mem_cons_self)
    cases more with
    | nil => simpa [Text.join, hfirst] using hc
    | cons second others => simpa [Text.join, hfirst] using hc

theorem anchor_ofText_of_head? {cs : List Char} (h : cs.head? ≠ some '/') :
    Anchor.ofText cs = .relative ∧ Anchor.ofText ('/' :: cs) = .root ∧
      Anchor.ofText ('/' :: '/' :: cs) = .doubleRoot := by
  cases cs with
  | nil => exact ⟨rfl, rfl, rfl⟩
  | cons c rest =>
    have hc : c ≠ '/' := by simpa using h
    refine ⟨?_, ?_, ?_⟩
    · simp [Anchor.ofText, hc]
    · simp [Anchor.ofText, hc]
    · simp [Anchor.ofText, hc]

@[simp] theorem ofText_text (p : Path) : ofText p.text = p := by
  obtain ⟨anchor, parts, plain⟩ := p
  obtain ⟨hrelative, hroot, hdouble⟩ := anchor_ofText_of_head? (head?_join plain)
  have hparts := partsOfText_join plain
  have htext : ∀ cs, (Path.text ⟨anchor, parts, plain⟩).toList = cs →
      Anchor.ofText cs = anchor → partsOfText (String.ofList cs) = parts →
      ofText (Path.text ⟨anchor, parts, plain⟩) = ⟨anchor, parts, plain⟩ := by
    rintro _ rfl hanchor hparts'
    rw [String.ofList_toList] at hparts'
    simp only [ofText, hanchor, hparts']
  cases anchor with
  | relative =>
    cases parts with
    | nil =>
      have hdot : (ofText ".").anchor = .relative ∧ (ofText ".").parts = [] := by decide
      exact ext_parts hdot.1 hdot.2
    | cons first more =>
      exact htext _ (by simp [text, Anchor.text]) hrelative hparts
  | root =>
    refine htext ('/' :: Text.join '/' (parts.map String.toList)) ?_ hroot ?_
    · simp [text, Anchor.text]
    · rw [partsOfText_slash, hparts]
  | doubleRoot =>
    refine htext ('/' :: '/' :: Text.join '/' (parts.map String.toList)) ?_ hdouble ?_
    · simp [text, Anchor.text]
    · rw [partsOfText_slash, partsOfText_slash, hparts]

theorem text_inj : p.text = q.text ↔ p = q :=
  ⟨fun h => by rw [← ofText_text p, h, ofText_text], fun h => by rw [h]⟩

/-- The spelling of the parent is no longer. -/
theorem utf8ByteSize_parent_le (hne : p.parts ≠ []) :
    p.parent.text.utf8ByteSize ≤ p.text.utf8ByteSize := by
  have hjoin : Text.join '/' (p.parts.dropLast.map String.toList) <+:
      Text.join '/' (p.parts.map String.toList) := by
    have hprefix := Text.join_prefix '/' (p.parts.dropLast.map String.toList)
      [(p.parts.getLast hne).toList]
    rwa [← List.map_singleton, ← List.map_append, List.dropLast_append_getLast hne] at hprefix
  have hsize := String.utf8Len_le_of_prefix hjoin
  have htext : p.text =
      p.anchor.text ++ String.ofList (Text.join '/' (p.parts.map String.toList)) := by
    obtain ⟨anchor, parts, plain⟩ := p
    cases parts with
    | nil => exact absurd rfl hne
    | cons first more => cases anchor <;> rfl
  rw [text, parent]
  dsimp only
  split
  · -- a spelling is never empty
    have hempty : p.text ≠ "" := by
      intro h
      have hnone : (ofText "").parts = [] := by decide
      rw [← h, ofText_text] at hnone
      exact hne hnone
    have hdot : ".".utf8ByteSize = 1 := by decide
    rw [hdot]
    exact Nat.one_le_iff_ne_zero.2 (mt String.utf8ByteSize_eq_zero_iff.1 hempty)
  · rw [htext, String.utf8ByteSize_append, String.utf8ByteSize_append, String.utf8ByteSize_ofList,
      String.utf8ByteSize_ofList]
    exact Nat.add_le_add_left hsize _

/-- A name that may be a part spells the path with this part. -/
theorem ofText_of_isPart {name : String} (h : IsPart name) :
    (ofText name).anchor = .relative ∧ (ofText name).parts = [name] := by
  have hone : ∀ s ∈ [name], IsPart s := by simpa using h
  have htext : (Path.text ⟨.relative, [name], hone⟩) = name := by
    simp [text, Anchor.text, Text.join]
  have hpath := ofText_text ⟨.relative, [name], hone⟩
  rw [htext] at hpath
  rw [hpath]
  exact ⟨rfl, rfl⟩

/-! ## Moving about -/

theorem extend_cons (base : Path) (name : String) (names : List String) :
    base.extend (name :: names) = (base.join (ofText name)).extend names := rfl

/-- Names that may be parts are put behind the parts of a path. -/
theorem extend_of_isPart {names : List String} (h : ∀ name ∈ names, IsPart name) (base : Path) :
    (base.extend names).anchor = base.anchor ∧ (base.extend names).parts = base.parts ++ names := by
  induction names generalizing base with
  | nil => exact ⟨rfl, (List.append_nil _).symm⟩
  | cons name rest ih =>
    simp only [List.mem_cons, forall_eq_or_imp] at h
    obtain ⟨hanchor, hparts⟩ := ofText_of_isPart h.1
    have hjoin : (base.join (ofText name)).anchor = base.anchor ∧
        (base.join (ofText name)).parts = base.parts ++ [name] := by
      rw [join]
      simp only [hanchor, hparts, and_self]
    obtain ⟨hanchor', hparts'⟩ := ih h.2 (base.join (ofText name))
    rw [extend_cons, hanchor', hparts', hjoin.1, hjoin.2, List.append_assoc]
    exact ⟨rfl, rfl⟩

/-- A path goes on from another one without turning back. -/
def Below (q p : Path) : Prop :=
  q.anchor = p.anchor ∧ ∃ names, names ≠ [] ∧ ".." ∉ names ∧ q.parts = p.parts ++ names

theorem Below.trans (hr : r.Below q) (hq : q.Below p) : r.Below p := by
  obtain ⟨hanchor, names, hne, hup, hparts⟩ := hq
  obtain ⟨hanchor', names', -, hup', hparts'⟩ := hr
  refine ⟨hanchor'.trans hanchor, names ++ names', by simp [hne], by simp [hup, hup'], ?_⟩
  rw [hparts', hparts, List.append_assoc]

theorem below_extend {names : List String} (hne : names ≠ [])
    (h : ∀ name ∈ names, IsPart name ∧ name ≠ "..") (p : Path) : (p.extend names).Below p := by
  obtain ⟨hanchor, hparts⟩ := extend_of_isPart (fun name hname => (h name hname).1) p
  exact ⟨hanchor, names, hne, fun hup => (h _ hup).2 rfl, hparts⟩

theorem Below.exists_extend (h : q.Below p) :
    ∃ names, names ≠ [] ∧ ".." ∉ names ∧ q.parts = p.parts ++ names ∧ q = p.extend names := by
  obtain ⟨hanchor, names, hne, hup, hparts⟩ := h
  have hplain : ∀ name ∈ names, IsPart name := fun name hname =>
    q.plain name (hparts ▸ List.mem_append_right _ hname)
  obtain ⟨hanchor', hparts'⟩ := extend_of_isPart hplain p
  exact ⟨names, hne, hup, hparts,
    ext_parts (hanchor.trans hanchor'.symm) (hparts.trans hparts'.symm)⟩

/-! ## Order -/

theorem key_injective (h : p.key = q.key) : p = q := by
  -- an anchor that counts holds a slash, which no part does
  have hroot : ∀ (r : Path) (l : List String), r.parts ≠ "/" :: l := fun r l hr =>
    (r.plain "/" (hr ▸ List.mem_cons_self)).2.2 (by decide)
  have hdouble : ∀ (r : Path) (l : List String), r.parts ≠ "//" :: l := fun r l hr =>
    (r.plain "//" (hr ▸ List.mem_cons_self)).2.2 (by decide)
  obtain ⟨anchor, parts, plain⟩ := p
  obtain ⟨anchor', parts', plain'⟩ := q
  cases anchor <;> cases anchor'
  case relative.relative => exact ext_parts rfl h
  case root.root => exact ext_parts rfl (List.cons.inj h).2
  case doubleRoot.doubleRoot => exact ext_parts rfl (List.cons.inj h).2
  case relative.root => exact absurd h (hroot ⟨.relative, parts, plain⟩ _)
  case relative.doubleRoot => exact absurd h (hdouble ⟨.relative, parts, plain⟩ _)
  case root.relative => exact absurd h.symm (hroot ⟨.relative, parts', plain'⟩ _)
  case doubleRoot.relative => exact absurd h.symm (hdouble ⟨.relative, parts', plain'⟩ _)
  case root.doubleRoot => exact absurd (List.cons.inj h).1 (by simp [Anchor.text])
  case doubleRoot.root => exact absurd (List.cons.inj h).1 (by simp [Anchor.text])

protected theorem lt_trans (hpq : p < q) (hqr : q < r) : p < r :=
  lt_trans (a := p.key) hpq hqr

protected theorem lt_irrefl (p : Path) : ¬ p < p := lt_irrefl p.key

theorem lt_of_not_lt (hne : p ≠ q) (h : ¬ p < q) : q < p :=
  (lt_or_gt_of_ne (mt key_injective hne)).resolve_left h

theorem mem_insertIn {l : List Path} : q ∈ p.insertIn l ↔ q = p ∨ q ∈ l := by
  induction l with
  | nil => simp [insertIn]
  | cons first rest ih =>
    rw [insertIn]
    split
    · exact List.mem_cons
    · split
      next heq => simp [heq]
      next =>
        rw [List.mem_cons, ih, List.mem_cons]
        exact or_left_comm

theorem pairwise_insertIn {l : List Path} (h : l.Pairwise (· < ·)) :
    (p.insertIn l).Pairwise (· < ·) := by
  induction l with
  | nil => exact List.pairwise_singleton _ _
  | cons first rest ih =>
    obtain ⟨hfirst, hrest⟩ := List.pairwise_cons.1 h
    rw [insertIn]
    split
    next hlt =>
      refine List.pairwise_cons.2 ⟨fun q hq => ?_, h⟩
      rcases List.mem_cons.1 hq with rfl | hq
      · exact hlt
      · exact Path.lt_trans hlt (hfirst q hq)
    next hlt =>
      split
      · exact h
      next hne =>
        refine List.pairwise_cons.2 ⟨fun q hq => ?_, ih hrest⟩
        rcases mem_insertIn.1 hq with rfl | hq
        · exact lt_of_not_lt hne hlt
        · exact hfirst q hq

theorem foldl_insertIn (paths l : List Path) :
    (∀ q, q ∈ paths.foldl (fun l p => p.insertIn l) l ↔ q ∈ l ∨ q ∈ paths) ∧
      (l.Pairwise (· < ·) → (paths.foldl (fun l p => p.insertIn l) l).Pairwise (· < ·)) := by
  induction paths generalizing l with
  | nil => simp
  | cons p rest ih =>
    obtain ⟨hmem, hpairwise⟩ := ih (p.insertIn l)
    refine ⟨fun q => ?_, fun h => hpairwise (pairwise_insertIn h)⟩
    rw [List.foldl_cons, hmem, mem_insertIn, List.mem_cons, or_assoc]
    exact or_left_comm

@[simp] theorem mem_sorted {paths : List Path} : q ∈ sorted paths ↔ q ∈ paths := by
  simpa [sorted] using (foldl_insertIn paths []).1 q

theorem pairwise_sorted (paths : List Path) : (sorted paths).Pairwise (· < ·) :=
  (foldl_insertIn paths []).2 .nil

/-- Only the paths that are in a list matter for their order. -/
theorem sorted_eq_iff {paths others : List Path} :
    sorted paths = sorted others ↔ ∀ q, q ∈ paths ↔ q ∈ others := by
  refine ⟨fun h q => by rw [← mem_sorted, h, mem_sorted], fun h => ?_⟩
  have hne : ∀ {a b : Path}, a < b → a ≠ b := by
    rintro a _ hlt rfl
    exact Path.lt_irrefl a hlt
  have hnodup : ∀ l : List Path, (sorted l).Nodup := fun l => (pairwise_sorted l).imp hne
  have hperm : (sorted paths).Perm (sorted others) :=
    (List.perm_ext_iff_of_nodup (hnodup _) (hnodup _)).2 fun q => by
      rw [mem_sorted, mem_sorted, h]
  exact hperm.eq_of_pairwise
    (fun a b _ _ hab hba => absurd (Path.lt_trans hab hba) (Path.lt_irrefl a))
    (pairwise_sorted _) (pairwise_sorted _)

end Path

end CrudSchema
