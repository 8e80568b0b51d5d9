import CrudSchema.Proofs.Registry
import CrudSchema.Proofs.Synthesis

/-!
# Which maps compile

**The conditions** (`Compilable`). They speak of the declarations alone: there is one at least, each
has one identifier and supported fields, none is named like something derived from the map, no two
would have a query in common, and with logical filters no filterable field is named like a
combinator.

**Why they suffice** (`fits_start_iff`). A run begins with the declared names and nothing else. What
is derived has distinct names whatever the types are called, so a derived type can only meet a
declared one, and of the operations only queries can meet.

Main result: `compile_succeeds_iff`, with what a failure can be about.
-/

namespace CrudSchema

open Naming

/-! ## The conditions -/

/-- Some declared type has a field of the scalar at the top. -/
def TypeMap.Uses (types : TypeMap) (kind : ScalarKind) : Prop :=
  ∃ d ∈ types.values, ∃ f ∈ d.fields, f.type = .named kind.name

structure Compilable (logical : Bool) (types : TypeMap) : Prop where
  nonempty : types.keys ≠ []
  identified : ∀ d ∈ types.values,
    (d.fields.filter fun f => f.type = .named "ID" && !f.nullable).length = 1
  supported : ∀ d ∈ types.values, ∀ f ∈ d.fields, f.type.Supported types.keys
  inputsFree : ∀ t ∈ types.keys, filterInput t ∉ types.keys ∧ sortInput t ∉ types.keys ∧
    createInput t ∉ types.keys ∧ updateInput t ∉ types.keys
  enumFree : sortDirection ∉ types.keys
  familiesFree : ∀ kind, types.Uses kind → ∀ n ∈ familyNames kind, n ∉ types.keys
  queriesApart : ∀ s ∈ types.keys, ∀ t ∈ types.keys, s ≠ t →
    Text.lower s ≠ Text.lower t ∧ Text.lower s ≠ Text.lower t ++ "s"
  combinatorsFree : logical = true → ∀ d ∈ types.values, ∀ f ∈ d.fields,
    (∃ kind : ScalarKind, f.type = .named kind.name) → f.name ≠ "and" ∧ f.name ≠ "or"

/-! ## Names of a sum -/

namespace Derive

variable {logical : Bool} {enums : List EnumType} {ts : List ClassifiedType}

theorem map_name_families (kinds : List ScalarKind) :
    (families kinds).inputs.map InputObject.name = kinds.flatMap familyNames := by
  rw [families, List.map_flatMap]
  exact List.flatMap_congr fun k _ => FilterShape.map_name_family k

theorem additions_enums_sublist (kinds : List ScalarKind) :
    List.Sublist (additions logical kinds enums ts).enums enums := by
  cases ts with
  | nil => exact List.nil_sublist _
  | cons t rest => rw [additions_enums (List.cons_ne_nil _ _)]

/-- The names of a sum and of some families more. -/
theorem additions_typeNames_perm (logical : Bool) (enums : List EnumType)
    (ts : List ClassifiedType) (more : List ScalarKind) :
    (additions logical [] enums ts ++ families more).typeNames.Perm
      ((freshKinds [] (ts.flatMap ClassifiedType.filterKinds) ++ more).flatMap familyNames ++
        (ts.map ClassifiedType.name).flatMap inputNames ++
        (additions logical [] enums ts).enums.map EnumType.name) := by
  have hinputs := (additions_inputs_perm logical [] enums ts).map InputObject.name
  rw [List.map_append, map_name_families, List.map_flatMap] at hinputs
  simp only [ClassifiedType.map_name_inputs] at hinputs
  rw [Addition.typeNames, Addition.inputs_append, List.map_append, map_name_families,
    Addition.enums_append, List.flatMap_append, List.flatMap_map]
  simp only [families, List.append_nil]
  refine List.Perm.append_right _ ?_
  refine (hinputs.append_right _).trans ?_
  rw [List.append_assoc, List.append_assoc]
  exact List.perm_append_comm.append_left _

theorem map_declaration_of_usable {known : List String} {decls : List Declaration}
    (h : List.Forall₂ (Usable known logical) decls ts) :
    ts.map ClassifiedType.declaration = decls := by
  induction h with
  | nil => rfl
  | cons hx _ ih => rw [List.map_cons, ih, (classifyType_eq_ok_iff.1 hx.1).1]

theorem map_name_of_usable {known : List String} {decls : List Declaration}
    (h : List.Forall₂ (Usable known logical) decls ts) :
    ts.map ClassifiedType.name = decls.map Declaration.name := by
  rw [← map_declaration_of_usable h, List.map_map]
  rfl

/-- **Derived types never meet**: not those of a sum, and not with the families needed next. -/
theorem additions_typeNames_nodup (logical : Bool) (hnames : (ts.map ClassifiedType.name).Nodup)
    (hscalar : ∀ n ∈ ts.map ClassifiedType.name, ∀ kind : ScalarKind, n ≠ kind.name)
    (more : List ScalarKind) :
    (additions logical [] [sortDirections] ts ++
      families (freshKinds (additions logical [] [sortDirections] ts).kinds more)).typeNames.Nodup
    := by
  have hkinds := freshKinds_append [] (ts.flatMap ClassifiedType.filterKinds) more
  rw [List.nil_append] at hkinds
  rw [(additions_typeNames_perm logical _ ts _).nodup_iff, additions_kinds, ← hkinds]
  have hderived := derivedNames_nodup (nodup_freshKinds []
    (ts.flatMap ClassifiedType.filterKinds ++ more)) hnames hscalar
  refine hderived.sublist ?_
  exact List.Sublist.append_left ((additions_enums_sublist []).map EnumType.name) _

theorem mem_queries {t : ClassifiedType} {o : Operation} (h : o ∈ t.queries) :
    o.typeName = t.name ∧ o.name ∈ queryNames t.name := by
  simp only [ClassifiedType.queries, List.mem_cons, List.not_mem_nil, or_false] at h
  rcases h with rfl | rfl
  · exact ⟨rfl, List.mem_cons_self ..⟩
  · exact ⟨rfl, List.mem_cons_of_mem _ (List.mem_cons_self ..)⟩

theorem map_name_queries (ts : List ClassifiedType) :
    (ts.flatMap ClassifiedType.queries).map Operation.name =
      (ts.map ClassifiedType.name).flatMap queryNames := by
  rw [List.map_flatMap, List.flatMap_map]
  rfl

theorem map_name_mutations (ts : List ClassifiedType) :
    (ts.flatMap ClassifiedType.mutations).map Operation.name =
      (ts.map ClassifiedType.name).flatMap mutationNames := by
  rw [List.map_flatMap, List.flatMap_map]
  rfl

/-- A query is told from others by its type and its name. -/
theorem nodup_queries (h : (ts.map ClassifiedType.name).Nodup) :
    ((ts.flatMap ClassifiedType.queries).map fun o => (o.typeName, o.name)).Nodup := by
  rw [List.map_flatMap, List.nodup_flatMap]
  refine ⟨fun t _ => ?_, (List.pairwise_map.1 h).imp fun hst =>
    List.disjoint_left.2 fun p hs ht => ?_⟩
  · refine List.Nodup.of_map Prod.snd ?_
    rw [List.map_map]
    exact queryNames_nodup t.name
  · obtain ⟨o, ho, rfl⟩ := List.mem_map.1 hs
    obtain ⟨o', ho', heq⟩ := List.mem_map.1 ht
    rw [(mem_queries ho).1, (mem_queries ho').1] at heq
    exact hst (congrArg Prod.fst heq).symm

/-- Two queries of one name are queries of two types. -/
theorem queries_meet (h : (ts.map ClassifiedType.name).Nodup) {before after : List Operation}
    {o present : Operation} (hqueries : ts.flatMap ClassifiedType.queries = before ++ o :: after)
    (hpresent : present ∈ before) (hname : present.name = o.name) :
    ∃ s ∈ ts, ∃ t ∈ ts, s.name ≠ t.name ∧ o.name ∈ queryNames s.name ∧
      o.name ∈ queryNames t.name ∧ present.typeName = s.name ∧ o.typeName = t.name := by
  obtain ⟨s, hs, hps⟩ := List.mem_flatMap.1
    (show present ∈ ts.flatMap ClassifiedType.queries by rw [hqueries]; simp [hpresent])
  obtain ⟨t, ht, hot⟩ := List.mem_flatMap.1
    (show o ∈ ts.flatMap ClassifiedType.queries by rw [hqueries]; simp)
  obtain ⟨hsname, hsquery⟩ := mem_queries hps
  obtain ⟨htname, htquery⟩ := mem_queries hot
  have happart := nodup_queries h
  rw [hqueries, List.map_append, List.map_cons, List.nodup_append] at happart
  have hne := happart.2.2 _ (List.mem_map_of_mem hpresent) _ (List.mem_cons_self ..)
  refine ⟨s, hs, t, ht, fun hst => hne ?_, hname ▸ hsquery, htquery, hsname, htname⟩
  rw [hsname, htname, hst, hname]

end Derive

/-! ## Room at the start -/

namespace Draft

theorem taken_start (known : List String) : (start known).taken = known := by
  simp [start, taken, OrderedMap.keys_empty]

theorem missingEnum_start (known : List String) :
    Derive.missingEnum (start known) = [Derive.sortDirections] := rfl

end Draft

section Start

open Derive

variable {logical : Bool} {types : TypeMap} {ts : List ClassifiedType}

/-- The types of a whole run are called as the map says. -/
theorem Merged.map_name_eq (hm : Merged types)
    (hts : List.Forall₂ (Usable types.keys logical) types.values ts) :
    ts.map ClassifiedType.name = types.keys := by
  rw [map_name_of_usable hts, hm.keys_eq]

/-- Every type of a run was classified from a declaration. -/
theorem exists_declaration_of_usable {known : List String} {decls : List Declaration}
    (h : List.Forall₂ (Usable known logical) decls ts) {t : ClassifiedType} (ht : t ∈ ts) :
    ∃ d ∈ decls, Usable known logical d t := by
  induction h with
  | nil => cases ht
  | cons hx _ ih =>
    rcases List.mem_cons.1 ht with rfl | ht
    · exact ⟨_, List.mem_cons_self .., hx⟩
    · obtain ⟨d, hd, hu⟩ := ih ht
      exact ⟨d, List.mem_cons_of_mem _ hd, hu⟩

/-- Every declaration of a run was classified. -/
theorem exists_type_of_usable {known : List String} {decls : List Declaration}
    (h : List.Forall₂ (Usable known logical) decls ts) {d : Declaration} (hd : d ∈ decls) :
    ∃ t ∈ ts, t.declaration = d := by
  rw [← map_declaration_of_usable h] at hd
  obtain ⟨t, ht, rfl⟩ := List.mem_map.1 hd
  exact ⟨t, ht, rfl⟩

theorem Merged.sound (hm : Merged types) {decls : List Declaration}
    (hdecls : ∀ d ∈ decls, d ∈ types.values)
    (hts : List.Forall₂ (Usable types.keys logical) decls ts) {t : ClassifiedType} (ht : t ∈ ts) :
    t.Sound types.keys ∧ t.declaration ∈ types.values := by
  obtain ⟨d, hd, hu⟩ := exists_declaration_of_usable hts ht
  obtain rfl := (classifyType_eq_ok_iff.1 hu.1).1
  exact ⟨⟨hu.1, (hm.acceptable _ (hdecls _ hd)).distinct⟩, hdecls _ hd⟩

/-- **At the start there is room for a sum exactly when declared types are in nobody's way.** -/
theorem fits_start_iff (hm : Merged types) (hne : types.keys ≠ [])
    (hts : List.Forall₂ (Usable types.keys logical) types.values ts) :
    (Draft.start types.keys).Fits (additions logical [] [sortDirections] ts) ↔
      (∀ n ∈ derivedNames (freshKinds [] (ts.flatMap ClassifiedType.filterKinds)) types.keys,
        n ∉ types.keys) ∧
      (types.keys.flatMap queryNames).Nodup := by
  have hnames := hm.map_name_eq hts
  have hts' : ts ≠ [] := by rintro rfl; exact hne (by rw [← hnames]; rfl)
  have hempty : additions logical [] [sortDirections] ts ++ families [] =
      additions logical [] [sortDirections] ts := Addition.append_empty _
  have hmem : ∀ n, n ∈ (additions logical [] [sortDirections] ts).typeNames ↔
      n ∈ derivedNames (freshKinds [] (ts.flatMap ClassifiedType.filterKinds)) types.keys := by
    intro n
    have hperm := (additions_typeNames_perm logical [sortDirections] ts []).mem_iff (a := n)
    rwa [hempty, additions_enums hts', hnames, List.append_nil] at hperm
  have hnodup : (additions logical [] [sortDirections] ts).typeNames.Nodup := by
    have := additions_typeNames_nodup logical (hnames ▸ types.nodup_keys)
      (fun n hn => hm.ne_scalar (hnames ▸ hn)) []
    rwa [freshKinds, hempty] at this
  have hquery : (additions logical [] [sortDirections] ts).query.map Operation.name =
      types.keys.flatMap queryNames := by rw [additions_query, map_name_queries, hnames]
  have hmutation : (additions logical [] [sortDirections] ts).mutation.map Operation.name =
      types.keys.flatMap mutationNames := by rw [additions_mutation, map_name_mutations, hnames]
  constructor
  · intro hfit
    refine ⟨fun n hn hk => hfit.free n ((hmem n).2 hn) (by rwa [Draft.taken_start]), ?_⟩
    rw [← hquery]
    exact hfit.query.of_append_right
  · rintro ⟨hfree, hqueries⟩
    refine ⟨fun n hn => ?_, hnodup, ?_, ?_⟩
    · rw [Draft.taken_start]
      exact hfree n ((hmem n).1 hn)
    · rw [hquery]
      exact hqueries
    · rw [hmutation]
      exact nodup_flatMap_mutationNames types.nodup_keys

/-- In a collision at the start a derived name meets a declared one, or two queries meet. -/
theorem collision_start (hm : Merged types) {first rest : List Declaration}
    (order : types.values = first ++ rest)
    (hts : List.Forall₂ (Usable types.keys logical) first ts) (more : List ScalarKind)
    {e : SynthesisError}
    (h : (Draft.start types.keys).Collision (additions logical [] [sortDirections] ts ++
      families (freshKinds (additions logical [] [sortDirections] ts).kinds more)) e) :
    (∃ n ∈ types.keys, e = .nameTaken n) ∨
      ∃ o, ∃ s ∈ types.keys, ∃ t ∈ types.keys, s ≠ t ∧ o ∈ queryNames s ∧ o ∈ queryNames t ∧
        e = .duplicateOperation o s t := by
  have hkeys : types.keys = first.map Declaration.name ++ rest.map Declaration.name := by
    rw [hm.keys_eq, order, List.map_append]
  have hnames := map_name_of_usable hts
  have hdistinct : (ts.map ClassifiedType.name).Nodup := by
    rw [hnames]
    exact (hkeys ▸ types.nodup_keys).of_append_left
  have hdeclared : ∀ n ∈ ts.map ClassifiedType.name, n ∈ types.keys := by
    intro n hn
    rw [hkeys, ← hnames]
    exact List.mem_append_left _ hn
  cases h with
  | @name n mem met =>
    refine .inl ⟨n, ?_, rfl⟩
    rcases met with met | met
    · rwa [Draft.taken_start] at met
    · have hnodup := additions_typeNames_nodup logical hdistinct
        (fun n hn => hm.ne_scalar (hdeclared n hn)) more
      have := List.nodup_iff_count_le_one.1 hnodup n
      omega
  | @query before after o present added _ met =>
    rw [Addition.query_append, additions_query] at added
    obtain ⟨hpresent, hname⟩ : present ∈ before ∧ present.name = o.name := by
      simpa [Draft.start, OrderedMap.empty] using met
    have hqueries : ts.flatMap ClassifiedType.queries = before ++ o :: after := by
      simpa [families] using added
    obtain ⟨s, hs, t, ht, hne, hsquery, htquery, hsname, htname⟩ :=
      queries_meet hdistinct hqueries hpresent hname
    exact .inr ⟨o.name, s.name, hdeclared _ (List.mem_map_of_mem hs), t.name,
      hdeclared _ (List.mem_map_of_mem ht), hne, hsquery, htquery, by rw [hsname, htname]⟩
  | @mutation before after o present added _ met =>
    exfalso
    rw [Addition.mutation_append, additions_mutation] at added
    obtain ⟨hpresent, hname⟩ : present ∈ before ∧ present.name = o.name := by
      simpa [Draft.start, OrderedMap.empty] using met
    have hmutations : ts.flatMap ClassifiedType.mutations = before ++ o :: after := by
      simpa [families] using added
    have hapart := nodup_flatMap_mutationNames hdistinct
    rw [← map_name_mutations, hmutations, List.map_append, List.map_cons,
      List.nodup_append] at hapart
    exact hapart.2.2 _ (List.mem_map_of_mem hpresent) _ (List.mem_cons_self ..) hname

end Start

/-! ## Compiling -/

section Compile

open Derive

variable {options : SynthesisOptions} {types : TypeMap}

theorem compile_empty (h : types.keys = []) :
    (compile options types).result = .error .noTypes := by
  have hempty : types.isEmpty = true :=
    OrderedMap.isEmpty_eq_true_iff.2 (List.map_eq_nil_iff.1 h)
  rw [compile, if_pos hempty]
  rfl

/-- Compiling a map with types is folding them into a fresh draft. -/
theorem compile_result (h : types.keys ≠ []) :
    (compile options types).result =
      (draftOf options types).1.map fun _ => (draftOf options types).2.api types := by
  have hempty : ¬ types.isEmpty = true := fun he =>
    h (List.map_eq_nil_iff.2 (OrderedMap.isEmpty_eq_true_iff.1 he))
  rw [compile, if_neg hempty]
  rcases hrun : draftOf options types with ⟨_ | ⟨⟩, d⟩ <;> rfl

theorem compile_succeeds_iff_run (h : types.keys ≠ []) :
    (∃ api, (compile options types).result = .ok api) ↔
      ∃ d, (Draft.start types.keys).take
        (foldTypes types.keys options.logicalFilters types.values) = (.ok (), d) := by
  rw [compile_result h]
  change (∃ api, Except.map _ (draftOf options types).1 = .ok api) ↔
    ∃ d, draftOf options types = (.ok (), d)
  rcases draftOf options types with ⟨_ | ⟨⟩, d⟩ <;> simp [Except.map]

/-- Usable types are those that meet the conditions on single declarations. -/
theorem usable_iff {known : List String} {logical : Bool} {d : Declaration}
    (hd : d.fieldNames.Nodup) :
    (∃ t, Usable known logical d t) ↔
      (d.fields.filter fun f => f.type = .named "ID" && !f.nullable).length = 1 ∧
      (∀ f ∈ d.fields, f.type.Supported known) ∧
      (logical = true → ∀ f ∈ d.fields, (∃ kind : ScalarKind, f.type = .named kind.name) →
        f.name ≠ "and" ∧ f.name ≠ "or") := by
  have hcandidates : (identifierCandidates d).length =
      (d.fields.filter fun f => f.type = .named "ID" && !f.nullable).length := List.length_map ..
  have hclash : ∀ {t}, CrudSchema.classifyType known d = .ok t → (t.clash? = none ↔
      ∀ f ∈ d.fields, (∃ kind : ScalarKind, f.type = .named kind.name) →
        f.name ≠ "and" ∧ f.name ≠ "or") := by
    intro t ht
    obtain rfl := (classifyType_eq_ok_iff.1 ht).1
    have hsound : t.Sound known := ⟨ht, hd⟩
    have hscalar : ∀ f : Field, f.type.scalar?.isSome ↔
        ∃ kind : ScalarKind, f.type = .named kind.name := by
      intro f
      rw [Option.isSome_iff_exists]
      exact exists_congr fun kind => TypeRef.scalar?_eq_some_iff
    rw [t.clash?_eq_none_iff, hsound.mem_filterEntries_iff, hsound.mem_filterEntries_iff]
    constructor
    · rintro ⟨hand, hor⟩ f hf htype
      exact ⟨fun hn => hand ⟨f, hf, hn, (hscalar f).2 htype⟩,
        fun hn => hor ⟨f, hf, hn, (hscalar f).2 htype⟩⟩
    · intro hfree
      constructor
      · rintro ⟨f, hf, hn, htype⟩
        exact (hfree f hf ((hscalar f).1 htype)).1 hn
      · rintro ⟨f, hf, hn, htype⟩
        exact (hfree f hf ((hscalar f).1 htype)).2 hn
  rw [← hcandidates]
  constructor
  · rintro ⟨t, ht, hfree⟩
    obtain ⟨hlength, hsupport⟩ := classifyType_succeeds_iff.1 ⟨t, ht⟩
    exact ⟨hlength, hsupport, fun hl => (hclash ht).1 (hfree hl)⟩
  · rintro ⟨hlength, hsupport, hfree⟩
    obtain ⟨t, ht⟩ := classifyType_succeeds_iff.2 ⟨hlength, hsupport⟩
    exact ⟨t, ht, fun hl => (hclash ht).2 (hfree hl)⟩

/-- The declarations of a map are all usable exactly when each is. -/
theorem forall₂_usable_iff (known : List String) (logical : Bool) (decls : List Declaration) :
    (∃ ts, List.Forall₂ (Usable known logical) decls ts) ↔
      ∀ d ∈ decls, ∃ t, Usable known logical d t := by
  induction decls with
  | nil => exact ⟨fun _ => List.forall_mem_nil _, fun _ => ⟨[], .nil⟩⟩
  | cons d rest ih =>
    rw [List.forall_mem_cons, ← ih]
    constructor
    · rintro ⟨ts, hts⟩
      cases hts with
      | cons ht hrest => exact ⟨⟨_, ht⟩, _, hrest⟩
    · rintro ⟨⟨t, ht⟩, ts, hts⟩
      exact ⟨t :: ts, .cons ht hts⟩

/-- A kind is used by the types of a run exactly when it is in the map. -/
theorem Merged.uses_iff (hm : Merged types) {logical : Bool} {ts : List ClassifiedType}
    (hts : List.Forall₂ (Usable types.keys logical) types.values ts) {kind : ScalarKind} :
    kind ∈ freshKinds [] (ts.flatMap ClassifiedType.filterKinds) ↔ types.Uses kind := by
  rw [mem_freshKinds, List.mem_flatMap, and_iff_left List.not_mem_nil]
  constructor
  · rintro ⟨t, ht, hkind⟩
    obtain ⟨hsound, hd⟩ := hm.sound (fun _ => id) hts ht
    exact ⟨_, hd, hsound.mem_filterKinds_iff.1 hkind⟩
  · rintro ⟨d, hd, hkind⟩
    obtain ⟨t, ht, rfl⟩ := exists_type_of_usable hts hd
    exact ⟨t, ht, (hm.sound (fun _ => id) hts ht).1.mem_filterKinds_iff.2 hkind⟩

/-- Derived names are free exactly when the inputs, the families and the enum are. -/
theorem derivedNames_free_iff {kinds : List ScalarKind} {names : List String} :
    (∀ n ∈ derivedNames kinds names, n ∉ names) ↔
      (∀ t ∈ names, filterInput t ∉ names ∧ sortInput t ∉ names ∧ createInput t ∉ names ∧
        updateInput t ∉ names) ∧
      sortDirection ∉ names ∧ ∀ kind ∈ kinds, ∀ n ∈ familyNames kind, n ∉ names := by
  simp only [derivedNames, List.forall_mem_append, List.forall_mem_flatMap, inputNames,
    List.forall_mem_cons, List.not_mem_nil, false_implies, implies_true, and_true]
  tauto

/-- A map whose types are usable has room for what is derived exactly if names are free and queries
apart. -/
theorem Merged.succeeds_iff (hm : Merged types) (hne : types.keys ≠ []) :
    (∃ api, (compile options types).result = .ok api) ↔
      Compilable options.logicalFilters types := by
  rw [compile_succeeds_iff_run hne, Derive.succeeds_iff]
  have hroom : ∀ ts, List.Forall₂ (Usable types.keys options.logicalFilters) types.values ts →
      ((Draft.start types.keys).Fits (additions options.logicalFilters [] [sortDirections] ts) ↔
        ((∀ t ∈ types.keys, filterInput t ∉ types.keys ∧ sortInput t ∉ types.keys ∧
            createInput t ∉ types.keys ∧ updateInput t ∉ types.keys) ∧
          sortDirection ∉ types.keys ∧
          ∀ kind, types.Uses kind → ∀ n ∈ familyNames kind, n ∉ types.keys) ∧
        ∀ s ∈ types.keys, ∀ t ∈ types.keys, s ≠ t →
          Text.lower s ≠ Text.lower t ∧ Text.lower s ≠ Text.lower t ++ "s") := by
    intro ts hts
    rw [fits_start_iff hm hne hts, derivedNames_free_iff,
      nodup_flatMap_queryNames_iff types.nodup_keys]
    simp only [hm.uses_iff hts]
  have husable := forall₂_usable_iff types.keys options.logicalFilters types.values
  constructor
  · rintro ⟨ts, hts, hfit⟩
    obtain ⟨⟨hinputs, henum, hfamilies⟩, hqueries⟩ := (hroom ts hts).1 hfit
    have hall : ∀ d ∈ types.values, _ := fun d hd =>
      (usable_iff (hm.acceptable d hd).distinct).1 (husable.1 ⟨ts, hts⟩ d hd)
    exact ⟨hne, fun d hd => (hall d hd).1, fun d hd => (hall d hd).2.1, hinputs, henum, hfamilies,
      hqueries, fun hl d hd => (hall d hd).2.2 hl⟩
  · intro hc
    obtain ⟨ts, hts⟩ := husable.2 fun d hd => (usable_iff (hm.acceptable d hd).distinct).2
      ⟨hc.identified d hd, hc.supported d hd, fun hl => hc.combinatorsFree hl d hd⟩
    exact ⟨ts, hts, (hroom ts hts).2
      ⟨⟨hc.inputsFree, hc.enumFree, hc.familiesFree⟩, hc.queriesApart⟩⟩

/-- A fault about a name or an operation is a meeting with a declared name, or of two queries. -/
theorem Merged.error_cases (hm : Merged types) (hne : types.keys ≠ []) {e : SynthesisError}
    (h : (compile options types).result = .error e) :
    (∃ n ∈ types.keys, e = .nameTaken n) ∨
      (∃ o, ∃ s ∈ types.keys, ∃ t ∈ types.keys, s ≠ t ∧ o ∈ queryNames s ∧ o ∈ queryNames t ∧
        e = .duplicateOperation o s t) ∨
      (∃ n combinator, e = .combinatorClash n combinator) ∨
      (∃ n candidates, e = .missingIdentifier n candidates) ∨
      ∃ n f type, e = .unsupportedType n f type := by
  have hfault :
      Fault types.keys options.logicalFilters types.values (Draft.start types.keys) e := by
    rw [compile_result hne] at h
    rcases hrun : draftOf options types with ⟨e' | ⟨⟩, d⟩
    · rw [hrun] at h
      cases h
      exact fault_of_error hrun
    · rw [hrun] at h
      cases h
  cases hfault with
  | unclassified mem fault =>
    refine .inr (.inr (.inr ?_))
    exact (error_of_classifyType fault).imp (fun h => ⟨_, h⟩) fun h => ⟨_, h⟩
  | clash typeName combinator => exact .inr (.inr (.inl ⟨_, _, rfl⟩))
  | collision order usable more collision =>
    exact (collision_start hm order usable more collision).imp_right .inl

/-- **Exactly the compilable maps compile.** Derived names never meet each other: a fault that is
about a name is about a declared one, and a fault that is about an operation is about a query that
two declared types would have in common. -/
theorem compile_succeeds_iff (documents : List Document) (options : SynthesisOptions)
    (h : (merge documents).result = .ok types) :
    ((∃ api, (compile options types).result = .ok api) ↔
      Compilable options.logicalFilters types) ∧
    (derivedNames ScalarKind.all types.keys).Nodup ∧ (types.keys.flatMap mutationNames).Nodup ∧
    (∀ n, (compile options types).result = .error (.nameTaken n) → n ∈ types.keys) ∧
    ∀ o s t, (compile options types).result = .error (.duplicateOperation o s t) →
      s ∈ types.keys ∧ t ∈ types.keys ∧ s ≠ t ∧ o ∈ queryNames s ∧ o ∈ queryNames t := by
  have hm := merged_of_merge h
  have hderived : (derivedNames ScalarKind.all types.keys).Nodup :=
    derivedNames_nodup (by decide) types.nodup_keys fun n hn => hm.ne_scalar hn
  have hmutations := nodup_flatMap_mutationNames types.nodup_keys
  by_cases hne : types.keys = []
  · rw [compile_empty hne]
    refine ⟨⟨?_, fun hc => absurd hne hc.nonempty⟩, hderived, hmutations, ?_, ?_⟩
    · rintro ⟨_, he⟩; cases he
    · intro n he; cases he
    · intro o s t he; cases he
  · refine ⟨hm.succeeds_iff hne, hderived, hmutations, fun n he => ?_, fun o s t he => ?_⟩
    · obtain ⟨m, hk, hn⟩ | ⟨o, s, -, t, -, -, -, -, hn⟩ | ⟨_, _, hn⟩ | ⟨_, _, hn⟩ | ⟨_, _, _, hn⟩ :=
        hm.error_cases hne he
      · cases hn
        exact hk
      all_goals cases hn
    · obtain ⟨m, hk, hn⟩ | ⟨o, s, hs, t, ht, hst, hos, hot, hn⟩ | ⟨_, _, hn⟩ | ⟨_, _, hn⟩ |
        ⟨_, _, _, hn⟩ := hm.error_cases hne he
      · cases hn
      · cases hn
        exact ⟨hs, ht, hst, hos, hot⟩
      all_goals cases hn

/-- Two types that would both have the query `users`. -/
def userBesideUsers : List Document :=
  [{ types := [{ name := "User", fields := [⟨"id", .named "ID", false⟩] },
    { name := "Users", fields := [⟨"id", .named "ID", false⟩] }] }]

theorem userBesideUsers_does_not_compile :
    ∃ types, (merge userBesideUsers).result = .ok types ∧
      ¬ ∃ api, (compile {} types).result = .ok api := by
  refine ⟨_, rfl, fun hok => ?_⟩
  have hc := (compile_succeeds_iff userBesideUsers {} rfl).1.1 hok
  have hapart := hc.queriesApart "Users" (by decide) "User" (by decide) (by decide)
  exact hapart.2 (by decide)

end Compile

end CrudSchema
