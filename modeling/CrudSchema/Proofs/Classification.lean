import CrudSchema.Classification
import Mathlib.Data.List.Nodup

/-!
# What can be classified, and as what

**Support** (`TypeRef.Supported`). A reference can be classified exactly when the name inside all
its lists is a scalar or known (`classifyRef_succeeds_iff`). Nothing is lost on the way: a class
tells its reference and its mark (`typeRef_of_classifyRef`).

**Types** (`classifyType_eq_ok_iff`). A declaration is classified field by field, and its identifier
is the only candidate. It can be classified exactly when it has one candidate and all its fields are
supported (`classifyType_succeeds_iff`).

**Filterable fields** (`kind?_of_classifyRef`). A field can be filtered exactly when its type is the
name of a scalar.
-/

namespace CrudSchema

/-! ## References -/

/-- The name inside all the lists is a scalar or known. -/
def TypeRef.Supported (known : List String) (type : TypeRef) : Prop :=
  ∃ n, type.innermost? = some n ∧ ((∃ kind : ScalarKind, n = kind.name) ∨ n ∈ known)

/-- The number of lists around the name. -/
def TypeRef.depth : TypeRef → Nat
  | .named _ | .missing => 0
  | .list item _ => item.depth + 1

theorem ScalarKind.ofName?_eq_some_iff {n : String} {kind : ScalarKind} :
    ScalarKind.ofName? n = some kind ↔ n = kind.name :=
  ⟨fun h => (ScalarKind.name_of_ofName? h).symm, fun h => h ▸ ScalarKind.ofName?_name kind⟩

theorem ScalarKind.ofName?_eq_none_iff {n : String} :
    ScalarKind.ofName? n = none ↔ ∀ kind : ScalarKind, n ≠ kind.name := by
  rw [Option.eq_none_iff_forall_not_mem]
  exact forall_congr' fun kind => not_congr ScalarKind.ofName?_eq_some_iff

variable {known : List String} {top nullable : Bool} {type : TypeRef} {c : FieldClass}

/-- A list has the class of its items inside it; they do not stand at the top. -/
theorem classifyRef_list_eq_ok_iff {item : TypeRef} {itemNullable : Bool} :
    classifyRef known top (.list item itemNullable) nullable = .ok c ↔
      ∃ i, classifyRef known false item itemNullable = .ok i ∧ c = .list i nullable := by
  rw [classifyRef]
  cases classifyRef known false item itemNullable <;> simp [Except.map, eq_comm]

theorem classifyRef_succeeds_iff (top nullable : Bool) :
    (∃ c, classifyRef known top type nullable = .ok c) ↔ type.Supported known := by
  induction type generalizing top nullable with
  | named n =>
    simp only [TypeRef.Supported, TypeRef.innermost?, Option.some.injEq, exists_eq_left']
    rw [classifyRef]
    split
    next kind hkind =>
      exact ⟨fun _ => .inl ⟨kind, ScalarKind.ofName?_eq_some_iff.1 hkind⟩, fun _ => ⟨_, rfl⟩⟩
    next hnone =>
      have hscalar : ¬ ∃ kind : ScalarKind, n = kind.name := by
        simpa using ScalarKind.ofName?_eq_none_iff.1 hnone
      by_cases hn : n ∈ known <;> simp [hn, hscalar]
  | list item itemNullable ih =>
    have hsupport : (TypeRef.list item itemNullable).Supported known ↔ item.Supported known :=
      Iff.rfl
    rw [hsupport, ← ih false itemNullable]
    simp [classifyRef_list_eq_ok_iff]
  | missing => simp [classifyRef, TypeRef.Supported, TypeRef.innermost?]

theorem typeRef_of_classifyRef (h : classifyRef known top type nullable = .ok c) :
    c.typeRef = type ∧ c.nullable = nullable := by
  induction type generalizing top nullable c with
  | named n =>
    rw [classifyRef] at h
    split at h
    next kind hkind =>
      obtain rfl := ScalarKind.ofName?_eq_some_iff.1 hkind
      cases h
      split
      next hid =>
        simp only [Bool.and_eq_true, decide_eq_true_eq, Bool.not_eq_true'] at hid
        simp [FieldClass.typeRef, FieldClass.nullable, TypeRef.scalar, hid]
      · simp [FieldClass.typeRef, FieldClass.nullable, TypeRef.scalar]
    · split at h
      · cases h
        simp [FieldClass.typeRef, FieldClass.nullable]
      · cases h
  | list item itemNullable ih =>
    obtain ⟨i, hitem, rfl⟩ := classifyRef_list_eq_ok_iff.1 h
    obtain ⟨htype, hnull⟩ := ih hitem
    exact ⟨by rw [FieldClass.typeRef, htype, hnull], rfl⟩
  | missing => simp [classifyRef] at h

/-- A reference that can be classified has the same class where more types are known. -/
theorem classifyRef_of_subset {known' : List String} (hknown : known ⊆ known')
    (h : classifyRef known top type nullable = .ok c) :
    classifyRef known' top type nullable = .ok c := by
  induction type generalizing top nullable c with
  | named n =>
    rw [classifyRef] at h ⊢
    split at h
    · exact h
    · split at h
      next hn =>
        rw [if_pos (hknown hn)]
        exact h
      · cases h
  | list item itemNullable ih =>
    obtain ⟨i, hitem, rfl⟩ := classifyRef_list_eq_ok_iff.1 h
    exact classifyRef_list_eq_ok_iff.2 ⟨i, ih hitem, rfl⟩
  | missing => cases h

/-- The scalar that a field can be filtered by. -/
def TypeRef.scalar? : TypeRef → Option ScalarKind
  | .named n => ScalarKind.ofName? n
  | .list .. | .missing => none

theorem TypeRef.scalar?_eq_some_iff {kind : ScalarKind} :
    type.scalar? = some kind ↔ type = .scalar kind := by
  cases type with
  | named n => simp [scalar?, scalar, ScalarKind.ofName?_eq_some_iff]
  | list item itemNullable => simp [scalar?, scalar]
  | missing => simp [scalar?, scalar]

theorem kind?_of_classifyRef (h : classifyRef known top type nullable = .ok c) :
    c.kind? = type.scalar? := by
  cases type with
  | named n =>
    rw [classifyRef] at h
    rw [TypeRef.scalar?]
    split at h
    next kind hkind =>
      rw [hkind]
      cases h
      split
      next hid =>
        simp only [Bool.and_eq_true, decide_eq_true_eq] at hid
        simp [FieldClass.kind?, hid]
      · rfl
    next hnone =>
      rw [hnone]
      split at h <;> cases h
      rfl
  | list item itemNullable =>
    obtain ⟨i, -, rfl⟩ := classifyRef_list_eq_ok_iff.1 h
    rfl
  | missing => simp [classifyRef] at h

/-! ## Fields -/

def Field.isIdentifier (f : Field) : Bool := f.type = .named "ID" && !f.nullable

/-- The fields that are no identifier. -/
def Declaration.otherFields (d : Declaration) : List Field :=
  d.fields.filter fun f => !f.isIdentifier

/-- The fields whose type is the name of a scalar. -/
def Declaration.scalarFields (d : Declaration) : List Field :=
  d.fields.filter fun f => f.type.scalar?.isSome

theorem classify_eq_ok_iff {typeName : String} {f : Field} :
    classify known typeName f = .ok c ↔ classifyRef known true f.type f.nullable = .ok c := by
  rw [classify]
  cases classifyRef known true f.type f.nullable <;> simp [Except.mapError]

theorem classifyFields_eq_ok_iff {typeName : String} {fs : List Field}
    {l : List (Field × FieldClass)} :
    classifyFields known typeName fs = .ok l ↔
      l.map Prod.fst = fs ∧ ∀ x ∈ l, classifyRef known true x.1.type x.1.nullable = .ok x.2 := by
  induction fs generalizing l with
  | nil => cases l <;> simp [classifyFields]
  | cons f rest ih =>
    rw [classifyFields]
    constructor
    · intro h
      rcases hc : classify known typeName f with e | c
      · simp [hc, bind, Except.bind] at h
      · rcases hmore : classifyFields known typeName rest with e | more
        · simp [hc, hmore, bind, Except.bind] at h
        · simp only [hc, hmore, bind, Except.bind, Except.ok.injEq] at h
          subst h
          obtain ⟨hfst, hall⟩ := ih.1 hmore
          exact ⟨by simp [hfst], List.forall_mem_cons.2 ⟨classify_eq_ok_iff.1 hc, hall⟩⟩
    · rintro ⟨hfst, hall⟩
      cases l with
      | nil => cases hfst
      | cons x more =>
        obtain ⟨rfl, hrest⟩ := List.cons.inj hfst
        obtain ⟨hx, hall⟩ := List.forall_mem_cons.1 hall
        simp [classify_eq_ok_iff.2 hx, ih.2 ⟨hrest, hall⟩, bind, Except.bind]

theorem classifyFields_succeeds_iff (typeName : String) {fs : List Field} :
    (∃ l, classifyFields known typeName fs = .ok l) ↔ ∀ f ∈ fs, f.type.Supported known := by
  induction fs with
  | nil => simp [classifyFields]
  | cons f rest ih =>
    rw [List.forall_mem_cons, ← ih, ← classifyRef_succeeds_iff true f.nullable]
    constructor
    · rintro ⟨l, hl⟩
      obtain ⟨hfst, hall⟩ := classifyFields_eq_ok_iff.1 hl
      cases l with
      | nil => cases hfst
      | cons x more =>
        obtain ⟨rfl, hrest⟩ := List.cons.inj hfst
        obtain ⟨hx, hall⟩ := List.forall_mem_cons.1 hall
        exact ⟨⟨_, hx⟩, more, classifyFields_eq_ok_iff.2 ⟨hrest, hall⟩⟩
    · rintro ⟨⟨c, hc⟩, more, hmore⟩
      obtain ⟨rfl, hall⟩ := classifyFields_eq_ok_iff.1 hmore
      exact ⟨(f, c) :: more, classifyFields_eq_ok_iff.2 ⟨rfl, List.forall_mem_cons.2 ⟨hc, hall⟩⟩⟩

/-! ## Types -/

theorem resolveIdentifier_eq_ok_iff {d : Declaration} {n : String} :
    resolveIdentifier d = .ok n ↔ identifierCandidates d = [n] := by
  rw [resolveIdentifier]
  split
  next name h => simp [h]
  next candidates h =>
    constructor
    · intro hn; cases hn
    · intro hn; exact absurd hn (h n)

theorem classifyType_eq_ok_iff {d : Declaration} {t : ClassifiedType} :
    classifyType known d = .ok t ↔
      t.declaration = d ∧ t.fields.map Prod.fst = d.fields ∧
        (∀ x ∈ t.fields, classifyRef known true x.1.type x.1.nullable = .ok x.2) ∧
        identifierCandidates d = [t.identifier] := by
  rw [classifyType]
  constructor
  · intro h
    rcases hid : resolveIdentifier d with e | n
    · simp [hid, bind, Except.bind] at h
    · rcases hfields : classifyFields known d.name d.fields with e | l
      · simp [hid, hfields, bind, Except.bind] at h
      · simp only [hid, hfields, bind, Except.bind, Except.ok.injEq] at h
        subst h
        obtain ⟨hfst, hall⟩ := classifyFields_eq_ok_iff.1 hfields
        exact ⟨rfl, hfst, hall, resolveIdentifier_eq_ok_iff.1 hid⟩
  · obtain ⟨d', l, n⟩ := t
    rintro ⟨rfl, hfst, hall, hid⟩
    simp [resolveIdentifier_eq_ok_iff.2 hid, classifyFields_eq_ok_iff.2 ⟨hfst, hall⟩, bind,
      Except.bind]

/-- A declaration that can be classified is classified alike where more types are known. -/
theorem classifyType_of_subset {known' : List String} (hknown : known ⊆ known') {d : Declaration}
    {t : ClassifiedType} (h : classifyType known d = .ok t) : classifyType known' d = .ok t := by
  obtain ⟨hd, hfields, hclasses, hid⟩ := classifyType_eq_ok_iff.1 h
  have hclasses' := fun x hx => classifyRef_of_subset hknown (hclasses x hx)
  exact classifyType_eq_ok_iff.2 ⟨hd, hfields, hclasses', hid⟩

/-- **A declaration can be classified exactly when it has one identifier and its fields are
supported.** -/
theorem classifyType_succeeds_iff {d : Declaration} :
    (∃ t, classifyType known d = .ok t) ↔
      (identifierCandidates d).length = 1 ∧ ∀ f ∈ d.fields, f.type.Supported known := by
  rw [← classifyFields_succeeds_iff d.name]
  constructor
  · rintro ⟨t, ht⟩
    obtain ⟨-, hfst, hall, hid⟩ := classifyType_eq_ok_iff.1 ht
    exact ⟨by rw [hid]; rfl, _, classifyFields_eq_ok_iff.2 ⟨hfst, hall⟩⟩
  · rintro ⟨hlength, l, hl⟩
    obtain ⟨n, hid⟩ := List.length_eq_one_iff.1 hlength
    obtain ⟨hfst, hall⟩ := classifyFields_eq_ok_iff.1 hl
    exact ⟨⟨d, l, n⟩, classifyType_eq_ok_iff.2 ⟨rfl, hfst, hall, hid⟩⟩

theorem error_of_classify {typeName : String} {f : Field} {e : SynthesisError}
    (h : classify known typeName f = .error e) :
    ∃ n, e = .unsupportedType typeName f.name n := by
  rw [classify] at h
  rcases hc : classifyRef known true f.type f.nullable with n | c
  · rw [hc] at h
    cases h
    exact ⟨n, rfl⟩
  · rw [hc] at h
    cases h

/-- Classifying fields ends with the first that is refused. -/
theorem exists_first_of_classifyFields {typeName : String} {fs : List Field} {e : SynthesisError}
    (h : classifyFields known typeName fs = .error e) :
    ∃ before f after, fs = before ++ f :: after ∧
      (∀ g ∈ before, ∃ c, classify known typeName g = .ok c) ∧
      classify known typeName f = .error e := by
  induction fs with
  | nil => cases h
  | cons f rest ih =>
    rw [classifyFields] at h
    rcases hc : classify known typeName f with e' | c
    · rw [hc] at h
      cases h
      exact ⟨[], f, rest, rfl, List.forall_mem_nil _, hc⟩
    · rcases hmore : classifyFields known typeName rest with e' | more
      · rw [hc, hmore] at h
        cases h
        obtain ⟨before, g, after, rfl, hbefore, hg⟩ := ih hmore
        exact ⟨f :: before, g, after, rfl, List.forall_mem_cons.2 ⟨⟨c, hc⟩, hbefore⟩, hg⟩
      · rw [hc, hmore] at h
        cases h

/-- A declaration that cannot be classified lacks an identifier or support for a field. -/
theorem error_of_classifyType {d : Declaration} {e : SynthesisError}
    (h : classifyType known d = .error e) :
    (∃ candidates, e = .missingIdentifier d.name candidates) ∨
      ∃ f n, e = .unsupportedType d.name f n := by
  rw [classifyType] at h
  rcases hid : resolveIdentifier d with e' | n
  · simp only [hid, bind, Except.bind, Except.error.injEq] at h
    subst h
    rw [resolveIdentifier] at hid
    split at hid
    · cases hid
    · cases hid
      exact .inl ⟨_, rfl⟩
  · rcases hfields : classifyFields known d.name d.fields with e' | l
    · rw [hid, hfields] at h
      cases h
      obtain ⟨-, f, -, -, -, hf⟩ := exists_first_of_classifyFields hfields
      exact .inr ⟨f.name, error_of_classify hf⟩
    · simp [hid, hfields, bind, Except.bind] at h

end CrudSchema
