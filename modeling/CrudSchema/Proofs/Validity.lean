import CrudSchema.Proofs.Reach

/-!
# Why an assembled schema is valid

**Proper APIs** (`Api.Proper`). Closed ones whose names are public and that have no empty types
among what is reached. An input may require a field only if that is a scalar or a list, so no input
contains itself of necessity.

**Kinds of types** (`Assembled.cases`). Every type of an assembled schema is an object, a root, a
scalar, an enum or an input with fields.

**Verdict** (`assemble_of_proper`). A proper API is assembled: no two types have one name, and
nothing is wrong with any of them.
-/

namespace CrudSchema

open Schema

namespace Api

/-! ## Proper APIs -/

structure Proper (api : Api) : Prop extends api.Closed where
  rootsFree : "Query" ∉ api.typeNames ∧ "Mutation" ∉ api.typeNames
  typesPublic : ∀ n ∈ api.typeNames, IsPublic n
  objectsFilled : ∀ d ∈ api.objects.values, d.fields ≠ []
  objectsPublic : ∀ d ∈ api.objects.values, ∀ f ∈ d.fields, IsPublic f.name
  enumsFilled : ∀ e ∈ api.enums.values, e.values ≠ []
  enumsPublic : ∀ e ∈ api.enums.values, ∀ v ∈ e.values, IsPublic v
  inputsPublic : ∀ i ∈ api.inputs.values, ∀ e ∈ i.fields.entries, IsPublic e.1
  required : ∀ i ∈ api.inputs.values, ∀ e ∈ i.fields.entries, ∀ n, e.2.type = .named n →
    e.2.nullable = true ∨ ∃ kind : ScalarKind, n = kind.name
  queryFilled : api.query.values ≠ []
  operationsPublic : ∀ o ∈ api.query.values ++ api.mutation.values,
    IsPublic o.name ∧ ∀ a ∈ o.arguments, IsPublic a.name

variable {api : Api} {s : Schema}

/-! ## Kinds of types -/

theorem mem_filterMap_object? {ts : List NamedType} {o : ObjectType} :
    o ∈ ts.filterMap NamedType.object? ↔ .object o ∈ ts := by
  rw [List.mem_filterMap]
  constructor
  · rintro ⟨t, ht, hobject⟩
    cases t with
    | object o' => cases hobject; exact ht
    | scalar kind => cases hobject
    | enum e => cases hobject
    | input i => cases hobject
  · intro ho
    exact ⟨_, ho, rfl⟩

theorem mem_objects_of_filterMap (h : s.types.filterMap NamedType.object? =
    api.objects.values.map Declaration.toObject ++ api.roots) {o : ObjectType} :
    .object o ∈ s.types ↔ (∃ d ∈ api.objects.values, o = d.toObject) ∨ o ∈ api.roots := by
  rw [← mem_filterMap_object?, h, List.mem_append, List.mem_map]
  simp only [eq_comm]

theorem Assembled.mem_objects (h : api.Assembled s) {o : ObjectType} :
    .object o ∈ s.types ↔ (∃ d ∈ api.objects.values, o = d.toObject) ∨ o ∈ api.roots :=
  mem_objects_of_filterMap h.objects

/-- Every type is an object, a root, a scalar, an enum or an input with fields. -/
theorem Assembled.cases (h : api.Assembled s) {t : NamedType} (ht : t ∈ s.types) :
    (∃ d ∈ api.objects.values, t = .object d.toObject) ∨ (∃ o ∈ api.roots, t = .object o) ∨
      (∃ kind, t = .scalar kind) ∨ (∃ e ∈ api.enums.values, t = .enum e) ∨
      ∃ i ∈ api.filledInputs, t = .input i.toInput := by
  by_cases hobject : t.object? = none
  · obtain ⟨d, hd, rfl⟩ := h.resolved t ht hobject
    rcases mem_definitions.1 hd with ⟨kind, -, rfl⟩ | ⟨o, -, -, rfl⟩ | ⟨e, he, -, rfl⟩ |
      ⟨i, hi, -, rfl⟩
    · exact .inr (.inr (.inl ⟨kind, rfl⟩))
    · cases hobject
    · exact .inr (.inr (.inr (.inl ⟨e, he, rfl⟩)))
    · exact .inr (.inr (.inr (.inr ⟨i, hi, rfl⟩)))
  · cases t with
    | object o =>
      rcases h.mem_objects.1 ht with ⟨d, hd, rfl⟩ | hroot
      · exact .inl ⟨d, hd, rfl⟩
      · exact .inr (.inl ⟨o, hroot, rfl⟩)
    | scalar kind => exact absurd rfl hobject
    | enum e => exact absurd rfl hobject
    | input i => exact absurd rfl hobject

theorem mem_roots {o : ObjectType} (h : o ∈ api.roots) :
    (o = api.root "Query" api.query) ∨
      (o = api.root "Mutation" api.mutation ∧ api.mutation.values ≠ []) := by
  rcases List.mem_cons.1 h with rfl | h
  · exact .inl rfl
  · by_cases hempty : api.mutation.isEmpty = true
    · rw [if_pos hempty] at h
      cases h
    · rw [if_neg hempty] at h
      obtain rfl := List.mem_singleton.1 h
      refine .inr ⟨rfl, fun hnil => hempty ?_⟩
      exact OrderedMap.isEmpty_eq_true_iff.2 (List.map_eq_nil_iff.1 hnil)

/-! ## Names -/

theorem mem_name_roots {o : ObjectType} (h : o ∈ api.roots) : o.name ∈ ["Query", "Mutation"] := by
  rcases mem_roots h with rfl | ⟨rfl, -⟩
  · exact List.mem_cons_self
  · exact List.mem_cons_of_mem _ List.mem_cons_self

/-- A name that is reached through references is neither an object's nor a root's. -/
theorem Catalogued.name_of_fresh (h : api.Catalogued)
    (hroots : ∀ o ∈ api.roots, o.name ∉ api.typeNames) {n : String} (hn : n ∈ api.freshNames) :
    n ∉ api.objects.keys ∧ ∀ o ∈ api.roots, o.name ≠ n := by
  obtain ⟨hkey, hdeclared⟩ := List.mem_filter.1 hn
  rw [h.keys_catalogue] at hkey
  have hname := h.sublist_definitions.subset hkey
  refine ⟨by simpa [OrderedMap.contains_eq_false_iff] using hdeclared, ?_⟩
  rintro o ho rfl
  have hscalars : ∀ root ∈ ["Query", "Mutation"], root ∉ ScalarKind.all.map ScalarKind.name := by
    decide
  exact (List.mem_append.1 hname).elim (hscalars _ (mem_name_roots ho)) (hroots o ho)

theorem filter_isSome_object? (ts : List NamedType) :
    (ts.filter fun t => t.object?.isSome) = (ts.filterMap NamedType.object?).map .object := by
  induction ts with
  | nil => rfl
  | cons t rest ih =>
    cases t with
    | object o => exact congrArg (List.cons (NamedType.object o)) ih
    | scalar kind => exact ih
    | enum e => exact ih
    | input i => exact ih

/-- No two types have one name, if the roots have names of their own. -/
theorem Catalogued.nodup_typeNames (h : api.Catalogued)
    (hroots : ∀ o ∈ api.roots, o.name ∉ api.typeNames)
    (hobjects : s.types.filterMap NamedType.object? =
      api.objects.values.map Declaration.toObject ++ api.roots)
    (hdistinct : ((s.types.filter fun t => t.object?.isNone).map NamedType.name).Nodup)
    (hfresh : ∀ t ∈ s.types, t.object? = none → t.name ∈ api.freshNames) :
    s.typeNames.Nodup := by
  have hnames : ((s.types.filter fun t => t.object?.isSome).map NamedType.name) =
      api.objects.keys ++ api.roots.map ObjectType.name := by
    rw [filter_isSome_object?, hobjects, List.map_map, List.map_append, List.map_map,
      ← h.map_name_objects]
    rfl
  have hgiven : (api.objects.keys ++ api.roots.map ObjectType.name).Nodup := by
    have hdistinctRoots : List.Sublist (api.roots.map ObjectType.name) ["Query", "Mutation"] := by
      rw [roots]
      split <;> simp [root]
    refine List.nodup_append.2
      ⟨api.objects.nodup_keys, List.Nodup.sublist hdistinctRoots (by decide), ?_⟩
    intro n hn m hm hnm
    subst hnm
    obtain ⟨o, ho, rfl⟩ := List.mem_map.1 hm
    exact hroots o ho (by simp [typeNames, hn])
  have hperm := (List.filter_append_perm (fun t : NamedType => t.object?.isSome) s.types).map
    NamedType.name
  have hreached : (s.types.filter fun t => !t.object?.isSome) =
      s.types.filter fun t => t.object?.isNone := by simp
  rw [hreached, List.map_append, hnames] at hperm
  apply hperm.nodup_iff.1
  refine List.nodup_append.2 ⟨hgiven, hdistinct, fun n hn m hm hnm => ?_⟩
  subst hnm
  obtain ⟨t, ht, rfl⟩ := List.mem_map.1 hm
  obtain ⟨ht, hnone⟩ := List.mem_filter.1 ht
  obtain ⟨hdeclared, hroot⟩ :=
    h.name_of_fresh hroots (hfresh t ht (Option.isNone_iff_eq_none.1 hnone))
  rcases List.mem_append.1 hn with hn | hn
  · exact hdeclared hn
  · obtain ⟨o, ho, hname⟩ := List.mem_map.1 hn
    exact hroot o ho hname

/-- **No two types of an assembled schema have one name.** -/
theorem Proper.nodup_typeNames (h : api.Proper) (hs : api.Assembled s) : s.typeNames.Nodup := by
  refine h.toCatalogued.nodup_typeNames (fun o ho hname => ?_) hs.objects hs.distinct
    fun t ht hobject => ?_
  · rcases List.mem_cons.1 (mem_name_roots ho) with hquery | hmutation
    · exact h.rootsFree.1 (hquery ▸ hname)
    · exact h.rootsFree.2 (List.mem_singleton.1 hmutation ▸ hname)
  · obtain ⟨d, hd, htrimmed⟩ := hs.resolved t ht hobject
    exact mem_freshNames_of_mem_definitions h.toCatalogued hd (htrimmed ▸ hobject)

theorem repeated?_eq_none {seen names : List String} (hnodup : names.Nodup)
    (hfree : ∀ n ∈ names, n ∉ seen) : repeated? seen names = none := by
  induction names generalizing seen with
  | nil => rfl
  | cons n rest ih =>
    obtain ⟨hn, hrest⟩ := List.nodup_cons.1 hnodup
    rw [repeated?, if_neg (hfree n (List.mem_cons_self ..))]
    apply ih hrest
    intro m hm hseen
    rcases List.mem_cons.1 hseen with rfl | hseen
    · exact hn hm
    · exact hfree m (List.mem_cons_of_mem _ hm) hseen

/-! ## Members -/

theorem nameFlaws_eq_nil {names : List String} (h : ∀ n ∈ names, IsPublic n) :
    nameFlaws names = [] := by
  rw [nameFlaws, List.map_eq_nil_iff, List.filter_eq_nil_iff]
  intro n hn
  rw [isIntrospective_eq_false_iff.2 (h n hn).unreserved]
  exact Bool.false_ne_true

theorem memberFlaws_eq_nil {t : NamedType} (hpublic : ∀ n ∈ memberNames t, IsPublic n)
    (hfilled : memberNames t ≠ [] ∨ isScalar t = true) : memberFlaws t = [] := by
  have hempty : ((memberNames t).isEmpty && !isScalar t) = false := by
    rcases hfilled with hfilled | hscalar
    · rw [List.isEmpty_eq_false_iff.2 hfilled, Bool.false_and]
    · rw [hscalar, Bool.not_true, Bool.and_false]
  rw [memberFlaws]
  simp [hempty, nameFlaws_eq_nil hpublic]

theorem mem_memberNames_object {o : ObjectType} {n : String} :
    n ∈ memberNames (.object o) ↔ ∃ e ∈ o.fields.entries, n = e.1 ∨ n ∈ e.2.arguments.keys := by
  simp [memberNames]

theorem memberNames_object_ne_nil {o : ObjectType} {n : String} (h : n ∈ o.fields.keys) :
    memberNames (.object o) ≠ [] := by
  obtain ⟨e, he, rfl⟩ := List.mem_map.1 h
  exact List.ne_nil_of_mem (mem_memberNames_object.2 ⟨e, he, .inl rfl⟩)

theorem Proper.memberFlaws_toObject (h : api.Proper) {d : Declaration}
    (hd : d ∈ api.objects.values) : memberFlaws (.object d.toObject) = [] := by
  apply memberFlaws_eq_nil
  · intro n hn
    obtain ⟨e, he, hname⟩ := mem_memberNames_object.1 hn
    obtain ⟨f, hf, rfl⟩ := List.mem_map.1 (OrderedMap.mem_of_mem_entries_ofList he)
    rcases hname with rfl | hargument
    · exact h.objectsPublic d hd f hf
    · rw [OrderedMap.keys_empty] at hargument
      cases hargument
  · obtain ⟨f, hf⟩ := List.exists_mem_of_ne_nil _ (h.objectsFilled d hd)
    left
    apply memberNames_object_ne_nil (n := f.name)
    rw [Declaration.toObject, OrderedMap.mem_keys_ofList, List.map_map]
    exact List.mem_map_of_mem (f := Field.name) hf

theorem Proper.memberFlaws_root (h : api.Proper) (name : String) {operations : NameMap Operation}
    (hall : ∀ o ∈ operations.values, o ∈ api.query.values ++ api.mutation.values)
    (hfilled : operations.values ≠ []) : memberFlaws (.object (api.root name operations)) = [] := by
  apply memberFlaws_eq_nil
  · intro n hn
    obtain ⟨e, he, hname⟩ := mem_memberNames_object.1 hn
    obtain ⟨o, ho, rfl⟩ := List.mem_map.1 (OrderedMap.mem_of_mem_entries_ofList he)
    obtain ⟨hpublic, harguments⟩ := h.operationsPublic o (hall o ho)
    rcases hname with rfl | hargument
    · exact hpublic
    · rw [toField, OrderedMap.mem_keys_ofList, List.map_map] at hargument
      obtain ⟨a, ha, rfl⟩ := List.mem_map.1 hargument
      exact harguments a (List.mem_filter.1 ha).1
  · obtain ⟨o, ho⟩ := List.exists_mem_of_ne_nil _ hfilled
    left
    apply memberNames_object_ne_nil (n := o.name)
    rw [root, OrderedMap.mem_keys_ofList, List.map_map]
    exact List.mem_map_of_mem (f := Operation.name) ho

/-- Names and members of an assembled schema are as they must be. -/
theorem Proper.sound_of_mem (h : api.Proper) (hs : api.Assembled s) {t : NamedType}
    (ht : t ∈ s.types) : IsPublic t.name ∧ memberFlaws t = [] := by
  have hscalar : ∀ kind : ScalarKind, IsPublic kind.name := by
    intro kind
    cases kind <;> decide
  have hkey : ∀ n, n ∈ api.objects.keys ∨ n ∈ api.enums.keys ∨ n ∈ api.inputs.keys →
      IsPublic n := by
    intro n hn
    apply h.typesPublic
    simpa [typeNames] using hn
  rcases hs.cases ht with ⟨d, hd, rfl⟩ | ⟨o, ho, rfl⟩ | ⟨kind, rfl⟩ | ⟨e, he, rfl⟩ | ⟨i, hi, rfl⟩
  · exact ⟨hkey _ (.inl (h.map_name_objects ▸ List.mem_map_of_mem hd)), h.memberFlaws_toObject hd⟩
  · rcases mem_roots ho with rfl | ⟨rfl, hfilled⟩
    · refine ⟨show IsPublic "Query" by decide, ?_⟩
      exact h.memberFlaws_root _ (fun o ho => List.mem_append_left _ ho) h.queryFilled
    · refine ⟨show IsPublic "Mutation" by decide, ?_⟩
      exact h.memberFlaws_root _ (fun o ho => List.mem_append_right _ ho) hfilled
  · exact ⟨hscalar kind, memberFlaws_eq_nil (fun n hn => by cases hn) (.inr rfl)⟩
  · refine ⟨hkey _ (.inr (.inl (h.map_name_enums ▸ List.mem_map_of_mem he))), ?_⟩
    exact memberFlaws_eq_nil (h.enumsPublic e he) (.inl (h.enumsFilled e he))
  · obtain ⟨hi, hfilled⟩ := List.mem_filter.1 hi
    refine ⟨hkey _ (.inr (.inr (h.map_name_inputs ▸ List.mem_map_of_mem hi))), ?_⟩
    have hmembers : memberNames (.input i.toInput) = i.fields.keys := i.keys_toInput
    apply memberFlaws_eq_nil
    · rw [hmembers]
      intro n hn
      obtain ⟨e, he, rfl⟩ := List.mem_map.1 hn
      exact h.inputsPublic i hi e he
    · left
      rw [hmembers]
      intro hnil
      rw [OrderedMap.isEmpty_eq_true_iff.2 (List.map_eq_nil_iff.1 hnil)] at hfilled
      cases hfilled

/-! ## Circles -/

theorem mem_of_input? {n : String} {i : InputType} (h : s.input? n = some i) :
    .input i ∈ s.types ∧ i.name = n := by
  obtain ⟨t, ht, hfound⟩ := List.exists_of_findSome?_eq_some h
  cases t with
  | input j =>
    simp only [Option.ite_none_right_eq_some, Option.some.injEq] at hfound
    obtain ⟨hname, rfl⟩ := hfound
    exact ⟨ht, hname⟩
  | scalar kind => cases hfound
  | object o => cases hfound
  | enum e => cases hfound

theorem Proper.input?_scalar (h : api.Proper) (hs : api.Assembled s) (kind : ScalarKind) :
    s.input? kind.name = none := by
  rw [Option.eq_none_iff_forall_ne_some]
  intro i hi
  obtain ⟨hmem, hname⟩ := mem_of_input? hi
  rcases hs.cases hmem with ⟨d, -, ht⟩ | ⟨o, -, ht⟩ | ⟨k, ht⟩ | ⟨e, -, ht⟩ | ⟨j, hj, ht⟩
  · cases ht
  · cases ht
  · cases ht
  · cases ht
  · cases ht
    have hkey : j.name ∈ api.typeNames := by
      rw [typeNames, ← h.map_name_inputs]
      exact List.mem_append_right _ (List.mem_map_of_mem (List.mem_filter.1 hj).1)
    exact h.scalar_not_mem kind (hname ▸ hkey)

/-- No field requires an input directly. -/
theorem Proper.directInputs_eq_nil (h : api.Proper) (hs : api.Assembled s) {i : InputType}
    (hi : .input i ∈ s.types) : directInputs s i = [] := by
  obtain ⟨j, hj, rfl⟩ : ∃ j ∈ api.inputs.values, i = j.toInput := by
    rcases hs.cases hi with ⟨d, -, ht⟩ | ⟨o, -, ht⟩ | ⟨k, ht⟩ | ⟨e, -, ht⟩ | ⟨j, hj, ht⟩
    · cases ht
    · cases ht
    · cases ht
    · cases ht
    · exact ⟨j, (List.mem_filter.1 hj).1, NamedType.input.inj ht⟩
  rw [directInputs, List.filterMap_eq_nil_iff]
  intro entry hentry
  obtain ⟨e, he, rfl⟩ := List.mem_map.1 hentry
  obtain ⟨n, hn, -⟩ := (h.inputs j hj e he).2
  dsimp only
  split
  next target htype =>
    obtain ⟨hnamed, hrequired⟩ := TypeRef.eq_named_of_wrapped hn htype
    rcases h.required j hj e he target hnamed with hnullable | ⟨kind, rfl⟩
    · rw [hrequired] at hnullable
      cases hnullable
    · rw [h.input?_scalar hs kind]
      rfl
  next => rfl

theorem searchCircles_eq_nil (h : ∀ i, .input i ∈ s.types → directInputs s i = [])
    (fresh : List String) (n : String) : (searchCircles s fresh [⟨[], n⟩]).1 = [] := by
  rw [searchCircles]
  simp only [List.dropWhile_nil, List.append_nil]
  split
  · rcases hinput : s.input? n with _ | i
    · simp [searchCircles]
    · simp [searchCircles, h i (mem_of_input? hinput).1]
  · simp [searchCircles]

theorem flawsFrom_eq_nil (h : ∀ i, .input i ∈ s.types → directInputs s i = [])
    {ts : List NamedType} (hts : ∀ t ∈ ts, IsPublic t.name ∧ memberFlaws t = [])
    (fresh : List String) : flawsFrom s fresh ts = [] := by
  induction ts generalizing fresh with
  | nil => rfl
  | cons t rest ih =>
    obtain ⟨⟨hname, hmembers⟩, hrest⟩ := List.forall_mem_cons.1 hts
    have hnames : nameFlaws [t.name] = [] := nameFlaws_eq_nil (by simpa using hname)
    have hnone : nameFlaws [t.name] ++ memberFlaws t ++ [] = [] := by rw [hnames, hmembers]; rfl
    cases t with
    | input i =>
      show nameFlaws [_] ++ memberFlaws (.input i) ++ (searchCircles s fresh [⟨[], i.name⟩]).1 ++
        flawsFrom s (searchCircles s fresh [⟨[], i.name⟩]).2 rest = []
      rw [searchCircles_eq_nil h, ih hrest, hnone]
      rfl
    | scalar kind => exact List.append_eq_nil_iff.2 ⟨hnone, ih hrest fresh⟩
    | object o => exact List.append_eq_nil_iff.2 ⟨hnone, ih hrest fresh⟩
    | enum e => exact List.append_eq_nil_iff.2 ⟨hnone, ih hrest fresh⟩

/-! ## The verdict -/

/-- **A proper API is assembled.** -/
theorem assemble_of_proper (h : api.Proper) :
    ∃ s, (assemble api).result = .ok s ∧ api.Assembled s := by
  obtain ⟨s, hbuild, hs⟩ := build_of_closed h.toClosed
  refine ⟨s, ?_, hs⟩
  have hflaws : flaws s = [] :=
    flawsFrom_eq_nil (fun i hi => h.directInputs_eq_nil hs hi) (fun t ht => h.sound_of_mem hs ht) _
  have hnames : repeated? [] s.typeNames = none :=
    repeated?_eq_none (h.nodup_typeNames hs) fun n _ => List.not_mem_nil
  have hjudge : judge s = .ok () := by
    rw [judge, hnames]
    simp only [hflaws]
  rw [assemble, hbuild]
  simp only [hjudge]

end Api

end CrudSchema
