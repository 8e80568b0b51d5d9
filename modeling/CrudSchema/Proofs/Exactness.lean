import CrudSchema.Proofs.Inputs

/-!
# Classification is exact

**Fields** (`classify_exact`). A field is refused for the name inside all its lists and for nothing
else, and the fault tells that name. What is classified can be read back. A scalar is never taken
for a reference, and inside a list nothing is taken for an identifier
(`exists_classifyRef_of_mem_items`).

**Types** (`classifyType_exact`). The identifier of a declaration is resolved from types and marks
before any field is classified. It is the field whose class says so, and the one that is told by its
name afterwards. Without it nothing else is looked at; with it, the first field that is refused is
the fault (`exists_first_of_classifyFields`).
-/

namespace CrudSchema

variable {known : List String} {top nullable : Bool} {type : TypeRef} {c : FieldClass}

/-! ## References -/

/-- The classes of the items of a list, of their items, and so on. -/
def FieldClass.items : FieldClass → List FieldClass
  | .identifier | .scalar .. | .reference .. => []
  | .list item _ => item :: item.items

/-- Only a required `ID` at the top is an identifier. -/
theorem classifyRef_eq_identifier_iff :
    classifyRef known top type nullable = .ok .identifier ↔
      top = true ∧ type = .named "ID" ∧ nullable = false := by
  cases type with
  | named n =>
    rw [classifyRef]
    split
    next kind hkind =>
      obtain rfl := ScalarKind.ofName?_eq_some_iff.1 hkind
      have hid : kind.name = "ID" ↔ kind = .id :=
        ⟨fun h => ScalarKind.name_injective (l := .id) h, fun h => h ▸ rfl⟩
      rw [TypeRef.named.injEq, hid]
      by_cases h : kind = .id <;> cases top <;> cases nullable <;> simp [h]
    next hnone =>
      have hid : n ≠ "ID" := ScalarKind.ofName?_eq_none_iff.1 hnone .id
      by_cases hn : n ∈ known <;> simp [hn, hid]
  | list item itemNullable => simp [classifyRef_list_eq_ok_iff]
  | missing => simp [classifyRef]

/-- Scalars come first: what is classified as a reference is known and no scalar. -/
theorem of_classifyRef_eq_reference {n : String} {mark : Bool}
    (h : classifyRef known top type nullable = .ok (.reference n mark)) :
    n ∈ known ∧ ∀ kind : ScalarKind, n ≠ kind.name := by
  cases type with
  | named m =>
    rw [classifyRef] at h
    split at h
    · split at h <;> cases h
    next hnone =>
      split at h
      next hm =>
        cases h
        exact ⟨hm, ScalarKind.ofName?_eq_none_iff.1 hnone⟩
      · cases h
  | list item itemNullable =>
    obtain ⟨i, -, hc⟩ := classifyRef_list_eq_ok_iff.1 h
    cases hc
  | missing => cases h

/-- Whatever stands in a list was classified as something that does not stand at the top. -/
theorem exists_classifyRef_of_mem_items (h : classifyRef known top type nullable = .ok c)
    {i : FieldClass} (hi : i ∈ c.items) :
    ∃ itemType mark, classifyRef known false itemType mark = .ok i := by
  induction type generalizing top nullable c with
  | named n =>
    rw [classifyRef] at h
    split at h
    · cases h
      split at hi <;> cases hi
    · split at h <;> cases h
      cases hi
  | list item itemNullable ih =>
    obtain ⟨j, hj, rfl⟩ := classifyRef_list_eq_ok_iff.1 h
    rcases List.mem_cons.1 hi with rfl | hi
    · exact ⟨item, itemNullable, hj⟩
    · exact ih hj hi
  | missing => cases h

/-- A reference is refused for its innermost name. -/
theorem eq_of_classifyRef_eq_error {n e : String} (hn : type.innermost? = some n)
    (h : classifyRef known top type nullable = .error e) : e = n := by
  induction type generalizing top nullable with
  | named m =>
    cases hn
    rw [classifyRef] at h
    split at h
    · cases h
    · split at h <;> cases h
      rfl
  | list item itemNullable ih =>
    rw [classifyRef] at h
    rcases hitem : classifyRef known false item itemNullable with e' | i
    · rw [hitem] at h
      cases h
      exact ih hn hitem
    · rw [hitem] at h
      cases h
  | missing => cases hn

/-! ## Fields -/

theorem classify_succeeds_iff {typeName : String} {f : Field} :
    (∃ c, classify known typeName f = .ok c) ↔ f.type.Supported known := by
  rw [← classifyRef_succeeds_iff true f.nullable]
  exact exists_congr fun c => classify_eq_ok_iff

/-- **Classification is exact, and loses nothing.** A field whose type is a name inside any number
of lists is classified exactly if the name is a scalar or known, and refused for that name
otherwise. Its class tells the type and the mark. It is the identifier only for a required `ID`, and
no item of it is; wherever in it a reference stands, its name is known and no scalar. -/
theorem classify_exact (known : List String) (typeName : String) {f : Field} {n : String}
    (hn : f.type.innermost? = some n) :
    ((∃ c, classify known typeName f = .ok c) ↔
      (∃ kind : ScalarKind, n = kind.name) ∨ n ∈ known) ∧
    (¬ ((∃ kind : ScalarKind, n = kind.name) ∨ n ∈ known) →
      classify known typeName f = .error (.unsupportedType typeName f.name n)) ∧
    ∀ c, classify known typeName f = .ok c →
      c.typeRef = f.type ∧ c.nullable = f.nullable ∧
      (c = .identifier ↔ f.type = .named "ID" ∧ f.nullable = false) ∧
      .identifier ∉ c.items ∧
      ∀ name mark, .reference name mark ∈ c :: c.items →
        name ∈ known ∧ ∀ kind : ScalarKind, name ≠ kind.name := by
  have hsupport : f.type.Supported known ↔ (∃ kind : ScalarKind, n = kind.name) ∨ n ∈ known := by
    simp [TypeRef.Supported, hn]
  rw [← hsupport]
  refine ⟨classify_succeeds_iff, fun hunsupported => ?_, fun c hc => ?_⟩
  · rcases hclass : classifyRef known true f.type f.nullable with e | c
    · rw [classify, hclass, eq_of_classifyRef_eq_error hn hclass]
      rfl
    · exact absurd ((classifyRef_succeeds_iff true f.nullable).1 ⟨c, hclass⟩) hunsupported
  · rw [classify_eq_ok_iff] at hc
    obtain ⟨htype, hnullable⟩ := typeRef_of_classifyRef hc
    refine ⟨htype, hnullable, ?_, fun hid => ?_, fun name mark hmem => ?_⟩
    · have hid : classifyRef known true f.type f.nullable = .ok .identifier ↔ _ :=
        classifyRef_eq_identifier_iff
      rw [hc, Except.ok.injEq] at hid
      rw [hid, and_iff_right rfl]
    · obtain ⟨itemType, mark, hitem⟩ := exists_classifyRef_of_mem_items hc hid
      exact Bool.false_ne_true (classifyRef_eq_identifier_iff.1 hitem).1
    · rcases List.mem_cons.1 hmem with rfl | hmem
      · exact of_classifyRef_eq_reference hc
      · obtain ⟨itemType, mark', hitem⟩ := exists_classifyRef_of_mem_items hc hmem
        exact of_classifyRef_eq_reference hitem

/-- Rows of required `ID`s, none of which is an identifier. -/
def grid : Field := ⟨"grid", .list (.list (.named "ID") false) true, false⟩

/-- The grid is read back, and a known type called like a scalar does not matter; a list of dates is
refused for its dates. -/
theorem grid_reads_back : ∃ c, classify ["ID"] "Sheet" grid = .ok c ∧ c.typeRef = grid.type ∧
    c.nullable = false ∧ .identifier ∉ c :: c.items ∧
    (∀ name mark, .reference name mark ∉ c :: c.items) ∧
    classify ["ID"] "Sheet" ⟨"days", .list (.named "Date") false, true⟩ =
      .error (.unsupportedType "Sheet" "days" "Date") := by
  obtain ⟨hclassified, -, hclass⟩ := classify_exact ["ID"] "Sheet" (f := grid) (n := "ID") rfl
  obtain ⟨-, hrefused, -⟩ := classify_exact ["ID"] "Sheet"
    (f := ⟨"days", .list (.named "Date") false, true⟩) (n := "Date") rfl
  obtain ⟨c, hc⟩ := hclassified.2 (.inl ⟨.id, rfl⟩)
  obtain ⟨htype, hnullable, hid, hitems, hreference⟩ := hclass c hc
  refine ⟨c, hc, htype, hnullable, ?_, fun name mark hmem => ?_, hrefused ?_⟩
  · rw [List.mem_cons, not_or]
    exact ⟨fun h => absurd (hid.1 h.symm) (by decide), hitems⟩
  · obtain ⟨hknown, hscalar⟩ := hreference name mark hmem
    exact hscalar .id (List.mem_singleton.1 hknown)
  · rintro (⟨kind, hkind⟩ | hknown)
    · exact ScalarKind.ofName?_eq_none_iff.1 (by decide) kind hkind
    · exact absurd hknown (by decide)

/-! ## Types -/

theorem classify_eq_identifier_iff {typeName : String} {f : Field} :
    classify known typeName f = .ok .identifier ↔ f.isIdentifier = true := by
  rw [classify_eq_ok_iff, classifyRef_eq_identifier_iff]
  simp [Field.isIdentifier]

theorem resolveIdentifier_of_length_ne_one {d : Declaration}
    (h : (d.fields.filter Field.isIdentifier).length ≠ 1) :
    resolveIdentifier d =
      .error (.missingIdentifier d.name ((d.fields.filter Field.isIdentifier).map Field.name)) := by
  have hcandidates : identifierCandidates d = (d.fields.filter Field.isIdentifier).map Field.name :=
    rfl
  rw [resolveIdentifier, ← hcandidates]
  split
  next n hn =>
    have hlength : (identifierCandidates d).length = 1 := by rw [hn]; rfl
    rw [hcandidates, List.length_map] at hlength
    exact absurd hlength h
  next => rfl

/-- The fields that are no identifier by their class are those that do not bear its name. -/
theorem ClassifiedType.Sound.nonIdentifierFields_eq {t : ClassifiedType}
    (h : ClassifiedType.Sound known t) :
    t.nonIdentifierFields = t.fields.filter fun x => x.2 ≠ .identifier := by
  refine List.filter_congr fun x hx => ?_
  have hclass : classify known t.name x.1 = .ok .identifier ↔ _ := classify_eq_identifier_iff
  rw [classify_eq_ok_iff, h.class_eq hx, Except.ok.injEq, h.isIdentifier_iff (h.field_mem hx)]
    at hclass
  rw [decide_eq_decide]
  exact (not_congr hclass).symm

/-- **Three ways to tell the identifier agree.** A declaration is classified exactly if all its
fields are and one of them as an identifier. That field gives the identifier its name, and the
others are those of other names. Where not exactly one field is a required `ID`, the fault lists
those that are, whatever else may be wrong; where one is, the fault is that of the first field that
is refused. -/
theorem classifyType_exact (known : List String) {d : Declaration}
    (hdistinct : d.fieldNames.Nodup) :
    ((∃ t, classifyType known d = .ok t) ↔
      (∃ f, d.fields.filter (classify known d.name · = .ok .identifier) = [f]) ∧
      ∀ f ∈ d.fields, ∃ c, classify known d.name f = .ok c) ∧
    (∀ t, classifyType known d = .ok t → ∃ f,
      d.fields.filter (classify known d.name · = .ok .identifier) = [f] ∧ t.identifier = f.name ∧
      t.fields.map Prod.fst = d.fields ∧ (∀ x ∈ t.fields, classify known d.name x.1 = .ok x.2) ∧
      t.nonIdentifierFields = t.fields.filter fun x => x.2 ≠ .identifier) ∧
    ((d.fields.filter Field.isIdentifier).length ≠ 1 →
      classifyType known d =
        .error (.missingIdentifier d.name ((d.fields.filter Field.isIdentifier).map Field.name))) ∧
    ((d.fields.filter Field.isIdentifier).length = 1 → ∀ e, classifyType known d = .error e →
      ∃ before f after n, d.fields = before ++ f :: after ∧
        (∀ g ∈ before, ∃ c, classify known d.name g = .ok c) ∧
        classify known d.name f = .error e ∧ e = .unsupportedType d.name f.name n) := by
  have hclassed : d.fields.filter (classify known d.name · = .ok .identifier) =
      d.fields.filter Field.isIdentifier := by
    refine List.filter_congr fun f _ => ?_
    rw [Bool.eq_iff_iff, decide_eq_true_iff, classify_eq_identifier_iff]
  have hlength : (identifierCandidates d).length = (d.fields.filter Field.isIdentifier).length :=
    List.length_map ..
  rw [hclassed]
  refine ⟨?_, fun t ht => ?_, fun hne => ?_, fun hone e he => ?_⟩
  · rw [classifyType_succeeds_iff, hlength, List.length_eq_one_iff]
    simp only [classify_succeeds_iff]
  · obtain rfl := (classifyType_eq_ok_iff.1 ht).1
    have hsound : t.Sound known := ⟨ht, hdistinct⟩
    obtain ⟨f, hf, hname⟩ := hsound.exists_filter_isIdentifier
    exact ⟨f, hf, hname.symm, hsound.fields_eq,
      fun x hx => classify_eq_ok_iff.2 (hsound.class_eq hx), hsound.nonIdentifierFields_eq⟩
  · rw [classifyType, resolveIdentifier_of_length_ne_one hne]
    rfl
  · rw [← hlength] at hone
    obtain ⟨n, hid⟩ := List.length_eq_one_iff.1 hone
    rw [classifyType, resolveIdentifier_eq_ok_iff.2 hid] at he
    rcases hfields : classifyFields known d.name d.fields with e' | l
    · rw [hfields] at he
      cases he
      obtain ⟨before, f, after, horder, hbefore, hf⟩ := exists_first_of_classifyFields hfields
      obtain ⟨type, htype⟩ := error_of_classify hf
      exact ⟨before, f, after, type, horder, hbefore, hf, htype⟩
    · rw [hfields] at he
      cases he

/-- Two fields could be the identifier, and a third one is of no known type. -/
def badge : Declaration where
  name := "Badge"
  fields := [⟨"day", .named "Date", false⟩, ⟨"id", .named "ID", false⟩,
    ⟨"origin", .named "ID", true⟩, ⟨"serial", .named "ID", false⟩,
    ⟨"links", .list (.named "ID") false, false⟩]

/-- The badge with one identifier, and a second field of no known type. -/
def stamp : Declaration where
  name := "Stamp"
  fields := [⟨"links", .list (.named "ID") false, false⟩, ⟨"id", .named "ID", false⟩,
    ⟨"day", .list (.named "Date") true, false⟩, ⟨"hour", .named "Time", true⟩]

/-- A badge lacks an identifier before its day is looked at; of a stamp the day is refused. -/
theorem badge_and_stamp_are_refused : badge.fieldNames.Nodup ∧ stamp.fieldNames.Nodup ∧
    classifyType ["User"] badge = .error (.missingIdentifier "Badge" ["id", "serial"]) ∧
    classifyType ["User"] stamp = .error (.unsupportedType "Stamp" "day" "Date") ∧
    ∃ before f after, stamp.fields = before ++ f :: after ∧ f.name = "day" ∧
      ∀ g ∈ before, ∃ c, classify ["User"] "Stamp" g = .ok c := by
  have hbadge : badge.fieldNames.Nodup := by decide
  have hstamp : stamp.fieldNames.Nodup := by decide
  obtain ⟨-, -, hmissing, -⟩ := classifyType_exact ["User"] hbadge
  obtain ⟨-, -, -, hunsupported⟩ := classifyType_exact ["User"] hstamp
  have hday : classifyType ["User"] stamp = .error (.unsupportedType "Stamp" "day" "Date") := rfl
  obtain ⟨before, f, after, n, horder, hbefore, -, hfault⟩ := hunsupported (by decide) _ hday
  obtain ⟨-, hname, -⟩ := SynthesisError.unsupportedType.inj hfault
  exact ⟨hbadge, hstamp, hmissing (by decide), hday, before, f, after, horder, hname.symm, hbefore⟩

end CrudSchema
