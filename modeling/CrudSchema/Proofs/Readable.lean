import CrudSchema.Proofs.Content
import CrudSchema.Proofs.Depth
import CrudSchema.Proofs.Spelling

/-!
# Assembled schemas can be read back

**Legal names** (`Compiled.legal_of_build`). Assembly fails at the first name that is not legal, so
what was assembled has legal names throughout, whatever the declarations were read from.

**Members.** Every declared type has its identifier, every input that is kept has a field, and the
roots have the operations of one type at least.

**Depth.** Derived references are no deeper than a list or a declared reference.

Main result: `Compiled.readable`, from the legal names and from declarations that are not too deep.
-/

namespace CrudSchema

open Schema Naming

/-! ## Legal names -/

theorem checkTypeName_of_addObjects {c c' : Catalogue} {l : List Declaration}
    (h : c.addObjects l = .ok c') : ∀ d ∈ l, Catalogue.checkTypeName d.name = .ok () := by
  induction l generalizing c with
  | nil => simp
  | cons d rest ih =>
    obtain ⟨⟨⟩, hname, h⟩ := Except.exists_of_bind h
    exact List.forall_mem_cons.2 ⟨hname, ih h⟩

theorem resolve_of_reachObjects {c : Catalogue} {inputs : NameMap InputObject} {names : List String}
    {r r' : Reached} (h : reachObjects c inputs r names = .ok r') :
    ∀ n ∈ names, ∀ d, c.get? n = some d → ∃ t, d.resolve c inputs = .ok t := by
  induction names generalizing r with
  | nil => simp
  | cons n rest ih =>
    rw [reachObjects] at h
    cases hget : c.get? n with
    | none =>
      rw [hget] at h
      refine List.forall_mem_cons.2 ⟨fun d hd => ?_, ih h⟩
      rw [hget] at hd
      cases hd
    | some d =>
      rw [hget] at h
      obtain ⟨t, ht, h⟩ := Except.exists_of_bind h
      obtain ⟨r₁, -, h⟩ := Except.exists_of_bind h
      refine List.forall_mem_cons.2 ⟨fun d' hd' => ?_, ih h⟩
      rw [hget] at hd'
      cases hd'
      exact ⟨t, ht⟩

theorem isName_of_resolve {c : Catalogue} {inputs : NameMap InputObject} {d : Declaration}
    {t : NamedType} (h : (Definition.object d).resolve c inputs = .ok t) :
    ∀ f ∈ d.fields, IsName f.name := by
  obtain ⟨fields, -, h⟩ := Except.exists_of_bind h
  obtain ⟨⟨⟩, hnames, -⟩ := Except.exists_of_bind h
  have hlegal := checkNames_eq_ok_iff.1 (Except.ok_of_mapError hnames)
  exact fun f hf => hlegal _ (List.mem_eraseDups.2 (List.mem_map_of_mem hf))

namespace Compiled

variable {logical : Bool} {types : TypeMap} {ts : List ClassifiedType} {api : Api} {s : Schema}

/-- **What was built has legal names.** -/
theorem legal_of_build (h : Compiled logical types ts api) (hbuild : build api = .ok s) :
    types.Legal := by
  obtain ⟨c, hcatalogue, hbuild⟩ := Except.exists_of_bind hbuild
  have hnames : ∀ n ∈ types.keys, Catalogue.checkTypeName n = .ok () := by
    obtain ⟨objects, hobjects, -⟩ := Except.exists_of_bind hcatalogue
    rw [h.objects] at hobjects
    rw [h.merged.keys_eq, List.forall_mem_map]
    exact checkTypeName_of_addObjects hobjects
  have hcatalogued := h.catalogued hnames
  rw [hcatalogued.ofApi_eq] at hcatalogue
  cases hcatalogue
  obtain ⟨query, -, hbuild⟩ := Except.exists_of_bind hbuild
  -- the objects are reached whether there are mutations or not
  obtain ⟨r, hreach⟩ : ∃ r, reachObjects api.catalogue api.inputs
      ⟨[], api.catalogue.keys.filter fun n => !api.objects.contains n⟩ api.objects.keys =
      .ok r := by
    dsimp only at hbuild
    split at hbuild
    all_goals
      obtain ⟨mutation, -, hbuild⟩ := Except.exists_of_bind hbuild
      obtain ⟨⟨⟩, -, hbuild⟩ := Except.exists_of_bind hbuild
      obtain ⟨r, hreach, -⟩ := Except.exists_of_bind hbuild
      exact ⟨r, hreach⟩
  refine ⟨hnames, ?_⟩
  rintro n ⟨d, hd, f, hf, rfl⟩
  rw [h.objects] at hreach
  have hdefinition : (d.name, Definition.object d) ∈ api.definitions :=
    Api.mem_definitions.2 (.inr (.inl ⟨d, h.objects ▸ hd, rfl, rfl⟩))
  obtain ⟨t, ht⟩ := resolve_of_reachObjects hreach d.name (h.merged.name_mem_keys hd) _
    (hcatalogued.get?_catalogue.2 hdefinition)
  exact isName_of_resolve ht f hf

end Compiled

namespace Api.Catalogued

variable {api : Api} {type : TypeRef}

theorem isName (h : api.Catalogued) {n : String} (hn : n ∈ api.typeNames) : IsName n :=
  (checkTypeName_eq_ok_iff.1 (h.legal n hn)).2

theorem isName_scalar (kind : ScalarKind) : IsName kind.name := by cases kind <;> decide

theorem named_of_supported (h : api.Catalogued) (htype : type.Supported api.objects.keys) :
    ∃ n, type.innermost? = some n ∧ IsName n := by
  obtain ⟨n, hn, ⟨kind, rfl⟩ | hkey⟩ := htype
  · exact ⟨_, hn, isName_scalar kind⟩
  · exact ⟨n, hn, h.isName (List.mem_append_left _ (List.mem_append_left _ hkey))⟩

theorem named_of_isInput (h : api.Catalogued) (htype : api.IsInput type) :
    ∃ n, type.innermost? = some n ∧ IsName n := by
  obtain ⟨n, hn, ⟨kind, rfl⟩ | hkey | ⟨i, hi, rfl⟩⟩ := htype
  · exact ⟨_, hn, isName_scalar kind⟩
  · exact ⟨n, hn, h.isName (List.mem_append_left _ (List.mem_append_right _ hkey))⟩
  · refine ⟨_, hn, h.isName (List.mem_append_right _ ?_)⟩
    rw [← h.map_name_inputs]
    exact List.mem_map_of_mem (List.mem_of_mem_filter hi)

end Api.Catalogued

/-! ## Readable types -/

namespace Compiled

variable {logical : Bool} {types : TypeMap} {ts : List ClassifiedType} {api : Api} {s : Schema}

theorem readable_toObject (h : Compiled logical types ts api) (hlegal : types.Legal)
    {d : Declaration} (hd : d ∈ types.values) (hshallow : d.Shallow) :
    (NamedType.object d.toObject).Readable := by
  have hc := h.closed hlegal
  have hdistinct := (h.merged.acceptable d hd).distinct
  have hobject : d ∈ api.objects.values := h.objects ▸ hd
  refine ⟨hc.isName ?_, ?_, ?_⟩
  · refine List.mem_append_left _ (List.mem_append_left _ ?_)
    rw [h.objects]
    exact h.merged.name_mem_keys hd
  · rw [Declaration.entries_toObject hdistinct]
    obtain ⟨t, ht, rfl⟩ := exists_type_of_usable h.usable hd
    obtain ⟨f, hf, -⟩ := (h.sound ht).1.exists_identifier
    exact fun hnil => List.ne_nil_of_mem hf (List.map_eq_nil_iff.1 hnil)
  · rw [Declaration.entries_toObject hdistinct, List.forall_mem_map]
    intro f hf
    obtain ⟨hname, hsupported⟩ := hc.objects d hobject f hf
    have hnone : ReadableArguments .empty := fun a ha => absurd ha List.not_mem_nil
    exact ⟨hname, ⟨f.type, f.nullable, rfl, hc.named_of_supported hsupported, hshallow f hf⟩, hnone⟩

theorem readable_root (h : Compiled logical types ts api) (hlegal : types.Legal) {name : String}
    (hname : IsName name) {operations : NameMap Operation} (hne : operations.values ≠ [])
    (hroot : ∀ o ∈ operations.values, o ∈ api.query.values ++ api.mutation.values) :
    (NamedType.object (api.root name operations)).Readable := by
  have hc := h.closed hlegal
  refine ⟨hname, ?_, fun e he => ?_⟩
  · obtain ⟨o, rest, hoperations⟩ := List.exists_cons_of_ne_nil hne
    have hkey : o.name ∈ (api.root name operations).fields.keys := by
      rw [Api.root, OrderedMap.mem_keys_ofList, hoperations]
      exact List.mem_cons_self
    intro hnil
    rw [OrderedMap.keys, hnil] at hkey
    cases hkey
  · obtain ⟨o, ho, rfl⟩ := List.mem_map.1 (OrderedMap.mem_of_mem_entries_ofList he)
    obtain ⟨honame, hreturn, harguments⟩ := hc.operations o (hroot o ho)
    obtain ⟨t, ht, hot, -⟩ := h.exists_type_of_operation (hroot o ho)
    have hdepth : o.returnType.depth ≤ Sdl.maximalDepth :=
      Nat.le_trans (depth_returnType hot) (by decide)
    refine ⟨honame, ⟨_, _, rfl, hc.named_of_supported hreturn, hdepth⟩, fun b hb => ?_⟩
    obtain ⟨a, ha, rfl⟩ := List.mem_map.1 (OrderedMap.mem_of_mem_entries_ofList hb)
    obtain ⟨ha, hkept⟩ := List.mem_filter.1 ha
    obtain ⟨haname, hout | hin⟩ := harguments a ha
    · rw [hout] at hkept
      cases hkept
    · have hflat : a.type.depth ≤ Sdl.maximalDepth := by
        rw [(h.soundArgument ht hot ha).depth]
        exact Nat.zero_le _
      exact ⟨haname, a.type, a.nullable, rfl, hc.named_of_isInput hin, hflat⟩

theorem readable_enum (h : Compiled logical types ts api) {e : EnumType}
    (he : e ∈ api.enums.values) : (NamedType.enum e).Readable := by
  obtain rfl := h.eq_sortDirections he
  exact ⟨by decide, by decide, by decide⟩

theorem readable_input (h : Compiled logical types ts api) (hlegal : types.Legal)
    (hshallow : ∀ d ∈ types.values, d.Shallow) {i : InputObject} (hi : i ∈ api.filledInputs) :
    (NamedType.input i.toInput).Readable := by
  have hc := h.closed hlegal
  obtain ⟨hi, hfilled⟩ := List.mem_filter.1 hi
  have hsome : i.fields.entries ≠ [] := OrderedMap.isEmpty_eq_false_iff.1 (by simpa using hfilled)
  refine ⟨hc.isName ?_, fun hnil => hsome (List.map_eq_nil_iff.1 hnil), fun entry hentry => ?_⟩
  · refine List.mem_append_right _ ?_
    rw [← hc.map_name_inputs]
    exact List.mem_map_of_mem hi
  · obtain ⟨e, he, rfl⟩ := List.mem_map.1 hentry
    obtain ⟨hname, hin⟩ := hc.inputs i hi e he
    refine ⟨hname, e.2.type, e.2.nullable, rfl, hc.named_of_isInput hin, ?_⟩
    obtain hdepth | ⟨d, hd, f, hf, hdepth⟩ := (h.soundField hi he).depth
    · exact Nat.le_trans hdepth (by decide)
    · exact hdepth ▸ hshallow d hd f hf

/-- **An assembled schema of declarations that are not too deep can be read back.** -/
theorem readable (h : Compiled logical types ts api) (hlegal : types.Legal)
    (hshallow : ∀ d ∈ types.values, d.Shallow) (hs : api.Assembled s) : s.Readable := by
  constructor
  · intro t ht
    obtain ⟨d, hd, rfl⟩ | ⟨o, ho, rfl⟩ | ⟨kind, rfl⟩ | ⟨e, he, rfl⟩ | ⟨i, hi, rfl⟩ := hs.cases ht
    · rw [h.objects] at hd
      exact h.readable_toObject hlegal hd (hshallow d hd)
    · obtain rfl | ⟨rfl, hne⟩ := Api.mem_roots ho
      · exact h.readable_root hlegal (by decide) h.query_ne_nil fun o => List.mem_append_left _
      · exact h.readable_root hlegal (by decide) hne fun o => List.mem_append_right _
    · trivial
    · exact h.readable_enum he
    · exact h.readable_input hlegal hshallow hi
  · have hquery : .object (api.root "Query" api.query) ∈ s.types :=
      hs.mem_objects.2 (.inr List.mem_cons_self)
    exact List.ne_nil_of_mem (List.mem_filter.2 ⟨hquery, rfl⟩)

end Compiled

end CrudSchema
