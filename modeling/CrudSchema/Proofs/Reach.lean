import CrudSchema.Proofs.Catalogue

/-!
# What is reached

**Outcomes** (`Meets`). A computation gives a value of some kind or fails for a reason of some kind.
Such facts compose along the steps of the assembly.

**Resolving APIs** (`Api.Resolves`). Every definition is resolved to its type without what is left
out, and every root to its fields, unless there is a fault of some kind.

**The invariant** (`Api.Reaching`). The objects stand in the order in which they were put there, and
every other type that was reached is that of a definition, is no longer fresh, and is referred to by
a type that is there. What a type refers to is pending as long as it is fresh.

**Reaching** (`Reaching.reach`). Nothing fails but for a fault in resolving, and in the end nothing
is pending.

**Built schemas** (`Api.Built`, `build_meets`). An API is built to its objects, in order, and the
roots, together with all that these refer to, directly or through others. A closed API has no fault
and loses no field (`Api.Assembled`, `build_of_closed`).
-/

namespace CrudSchema

open Schema

/-- The object of an object type. -/
def NamedType.object? : NamedType → Option ObjectType
  | .object o => some o
  | .scalar _ | .enum _ | .input _ => none

theorem mem_references_object {o : ObjectType} {n : String} :
    n ∈ (NamedType.object o).references ↔ ∃ e ∈ o.fields.entries, n ∈ e.2.references := by
  simp only [NamedType.references, OrderedMap.values, List.mem_flatMap, List.mem_map]
  constructor
  · rintro ⟨f, ⟨e, he, rfl⟩, hn⟩
    exact ⟨e, he, hn⟩
  · rintro ⟨e, he, hn⟩
    exact ⟨e.2, ⟨e, he, rfl⟩, hn⟩

theorem mem_references_input {i : InputType} {n : String} :
    n ∈ (NamedType.input i).references ↔ ∃ e ∈ i.fields.entries, e.2.type.innermost = n := by
  simp [NamedType.references, OrderedMap.values]

/-! ## Outcomes -/

/-- The computation gives such a value or fails for such a reason. -/
def Meets {ε α : Type} (fault : ε → Prop) (value : α → Prop) : Except ε α → Prop
  | .ok a => value a
  | .error e => fault e

namespace Meets

variable {ε α β : Type} {fault : ε → Prop} {P : α → Prop} {Q : β → Prop} {x : Except ε α}
  {f : α → Except ε β}

theorem bind (h : Meets fault P x) (hf : ∀ a, P a → Meets fault Q (f a)) :
    Meets fault Q (x >>= f) := by
  cases x with
  | error e => exact h
  | ok a => exact hf a h

theorem mono {P' : α → Prop} (h : Meets fault P x) (hP : ∀ a, P a → P' a) : Meets fault P' x := by
  cases x with
  | error e => exact h
  | ok a => exact hP a h

theorem map {g : α → β} (h : Meets fault P x) (hg : ∀ a, P a → Q (g a)) :
    Meets fault Q (g <$> x) := by
  cases x with
  | error e => exact h
  | ok a => exact hg a h

theorem of_ok {a : α} (h : x = .ok a) (ha : P a) : Meets fault P x := by
  rw [h]
  exact ha

theorem of_eq_ok {a : α} (h : Meets fault P x) (hx : x = .ok a) : P a := by
  rwa [hx] at h

theorem of_eq_error {e : ε} (h : Meets fault P x) (hx : x = .error e) : fault e := by
  rwa [hx] at h

/-- What has no reason to fail gives a value. -/
theorem exists_ok (h : Meets (fun _ => False) P x) : ∃ a, x = .ok a ∧ P a := by
  cases x with
  | error e => exact h.elim
  | ok a => exact ⟨a, rfl, h⟩

end Meets

namespace Api

variable {api : Api} {fault : AssemblyError → Prop}

/-! ## Resolving APIs -/

/-- Definitions and roots are resolved, unless there is such a fault. -/
structure Resolves (api : Api) (fault : AssemblyError → Prop) : Prop extends api.Catalogued where
  definitions : ∀ n d, (n, d) ∈ api.definitions →
    Meets fault (· = api.trimmed d) (d.resolve api.catalogue api.inputs)
  roots : ∀ name, ∀ operations : NameMap Operation,
    (∀ o ∈ operations.values, o ∈ api.query.values ++ api.mutation.values) →
    Meets fault (· = api.root name operations)
        (rootObject api.catalogue api.inputs name operations) ∧
      Meets fault (fun _ => True)
        ((checkNames (api.root name operations).fields.keys).mapError .illegalName)

theorem object?_trimmed (d : Definition) : (api.trimmed d).object? = d.resolved.object? := by
  cases d <;> rfl

theorem name_trimmed {n : String} {d : Definition} (hd : (n, d) ∈ api.definitions) :
    (api.trimmed d).name = n := by
  rcases mem_definitions.1 hd with ⟨kind, rfl, rfl⟩ | ⟨o, -, rfl, rfl⟩ | ⟨e, -, rfl, rfl⟩ |
    ⟨i, -, rfl, rfl⟩ <;> rfl

theorem trimmed_eq (h : api.Closed) {n : String} {d : Definition} (hd : (n, d) ∈ api.definitions) :
    api.trimmed d = d.resolved := by
  rcases mem_definitions.1 hd with ⟨kind, -, rfl⟩ | ⟨o, -, -, rfl⟩ | ⟨e, -, -, rfl⟩ |
    ⟨i, hi, -, rfl⟩
  · rfl
  · rfl
  · rfl
  · exact congrArg NamedType.input (trim_eq h (List.mem_filter.1 hi).1)

/-- A closed API has no fault. -/
theorem Closed.resolves (h : api.Closed) : api.Resolves fun _ => False where
  toCatalogued := h.toCatalogued
  definitions n d hd := .of_ok (resolve_eq h hd).1 (trimmed_eq h hd).symm
  roots name operations hroot := by
    refine ⟨.of_ok (rootObject_eq h name hroot) rfl, ?_⟩
    have hnames : checkNames (api.root name operations).fields.keys = .ok () := by
      refine checkNames_eq_ok_iff.2 fun n hn => ?_
      rw [root, OrderedMap.mem_keys_ofList, List.map_map] at hn
      obtain ⟨o, ho, rfl⟩ := List.mem_map.1 hn
      exact (h.operations o (hroot o ho)).1
    rw [hnames]
    trivial

/-! ## Fresh names -/

/-- The names that are reached through references. -/
def freshNames (api : Api) : List String :=
  api.catalogue.keys.filter fun n => !api.objects.contains n

theorem nodup_freshNames (api : Api) : api.freshNames.Nodup :=
  api.catalogue.nodup_keys.sublist List.filter_sublist

/-- A fresh name stands for something that is no object. -/
theorem exists_definition_of_mem_freshNames (h : api.Catalogued) {n : String}
    (hn : n ∈ api.freshNames) :
    ∃ d, (n, d) ∈ api.definitions ∧ d.resolved.object? = none := by
  obtain ⟨hkey, hfree⟩ := List.mem_filter.1 hn
  rw [h.keys_catalogue] at hkey
  obtain ⟨⟨m, d⟩, hd, rfl⟩ := List.mem_map.1 hkey
  refine ⟨d, hd, ?_⟩
  rcases mem_definitions.1 hd with ⟨kind, -, rfl⟩ | ⟨o, ho, rfl, rfl⟩ | ⟨e, -, -, rfl⟩ |
    ⟨i, -, -, rfl⟩
  · rfl
  · have hdeclared : o.name ∈ api.objects.keys := h.map_name_objects ▸ List.mem_map_of_mem ho
    rw [OrderedMap.contains_eq_true_iff.2 hdeclared] at hfree
    cases hfree
  · rfl
  · rfl

theorem mem_freshNames_of_mem_definitions (h : api.Catalogued) {n : String} {d : Definition}
    (hd : (n, d) ∈ api.definitions) (hobject : d.resolved.object? = none) : n ∈ api.freshNames := by
  refine List.mem_filter.2 ⟨?_, ?_⟩
  · rw [h.keys_catalogue]
    exact List.mem_map_of_mem hd
  · refine Bool.not_eq_true' _ ▸ OrderedMap.contains_eq_false_iff.2 fun hkey => ?_
    rw [← h.map_name_objects] at hkey
    obtain ⟨o, ho, hname⟩ := List.mem_map.1 hkey
    have hentry : (o.name, Definition.object o) ∈ api.definitions :=
      mem_definitions.2 (.inr (.inl ⟨o, ho, rfl, rfl⟩))
    have hsame := h.get?_catalogue.2 hd
    rw [← hname, h.get?_catalogue.2 hentry, Option.some.injEq] at hsame
    subst hsame
    cases hobject

/-! ## The invariant -/

/-- What holds while types are reached. -/
structure Reaching (api : Api) (given : List ObjectType) (pending : List String) (r : Reached) :
    Prop where
  objects : r.types.filterMap NamedType.object? = given
  fresh : (((r.types.filter fun t => t.object?.isNone).map NamedType.name) ++ r.fresh).Perm
    api.freshNames
  resolved : ∀ t ∈ r.types, t.object? = none →
    ∃ d, (t.name, d) ∈ api.definitions ∧ t = api.trimmed d
  origin : ∀ t ∈ r.types, t.object? = none → ∃ u ∈ r.types, t.name ∈ u.references
  closed : ∀ t ∈ r.types, ∀ n ∈ t.references, n ∈ r.fresh → n ∈ pending
  pending : ∀ n ∈ pending, ∃ u ∈ r.types, n ∈ u.references

namespace Reaching

variable {given : List ObjectType} {pending rest : List String} {r : Reached} {n : String}

theorem start (api : Api) : Reaching api [] [] ⟨[], api.freshNames⟩ := by
  constructor <;> simp

theorem mem_freshNames (inv : Reaching api given pending r) (hn : n ∈ r.fresh) :
    n ∈ api.freshNames :=
  inv.fresh.mem_iff.1 (List.mem_append_right _ hn)

theorem nodup_fresh (inv : Reaching api given pending r) : r.fresh.Nodup :=
  (inv.fresh.nodup_iff.2 api.nodup_freshNames).of_append_right

/-- A name that is not fresh can be passed over. -/
theorem skip (inv : Reaching api given (n :: rest) r) (hn : n ∉ r.fresh) :
    Reaching api given rest r where
  objects := inv.objects
  fresh := inv.fresh
  resolved := inv.resolved
  origin := inv.origin
  pending m hm := inv.pending m (List.mem_cons_of_mem _ hm)
  closed t ht m hm hfresh := by
    rcases List.mem_cons.1 (inv.closed t ht m hm hfresh) with rfl | hm
    · exact absurd hfresh hn
    · exact hm

/-- **A fresh name is reached**, and what it refers to becomes pending. -/
theorem enter (inv : Reaching api given (n :: rest) r) (hn : n ∈ r.fresh) {d : Definition}
    (hd : (n, d) ∈ api.definitions) (hobject : (api.trimmed d).object? = none) :
    Reaching api given ((api.trimmed d).references ++ rest)
      ⟨r.types ++ [api.trimmed d], r.fresh.erase n⟩ where
  objects := by rw [List.filterMap_append, inv.objects]; simp [hobject]
  fresh := by
    refine List.Perm.trans ?_ inv.fresh
    rw [List.filter_append, List.map_append, List.append_assoc]
    refine List.Perm.append_left _ ?_
    simpa [hobject, name_trimmed hd] using (List.perm_cons_erase hn).symm
  resolved t ht hnone := by
    rcases List.mem_append.1 ht with ht | ht
    · exact inv.resolved t ht hnone
    · obtain rfl := List.mem_singleton.1 ht
      exact ⟨d, (name_trimmed hd).symm ▸ hd, rfl⟩
  origin t ht hnone := by
    rcases List.mem_append.1 ht with ht | ht
    · obtain ⟨u, hu, href⟩ := inv.origin t ht hnone
      exact ⟨u, List.mem_append_left _ hu, href⟩
    · obtain rfl := List.mem_singleton.1 ht
      obtain ⟨u, hu, href⟩ := inv.pending n (List.mem_cons_self ..)
      exact ⟨u, List.mem_append_left _ hu, (name_trimmed hd).symm ▸ href⟩
  closed t ht m hm hfresh := by
    obtain ⟨hmn, hfresh⟩ := (inv.nodup_fresh.mem_erase_iff).1 hfresh
    rcases List.mem_append.1 ht with ht | ht
    · rcases List.mem_cons.1 (inv.closed t ht m hm hfresh) with rfl | hm
      · exact absurd rfl hmn
      · exact List.mem_append_right _ hm
    · obtain rfl := List.mem_singleton.1 ht
      exact List.mem_append_left _ hm
  pending m hm := by
    rcases List.mem_append.1 hm with hm | hm
    · exact ⟨api.trimmed d, by simp, hm⟩
    · obtain ⟨u, hu, href⟩ := inv.pending m (List.mem_cons_of_mem _ hm)
      exact ⟨u, List.mem_append_left _ hu, href⟩

/-- An object is put there, and what it refers to becomes pending. -/
theorem put (inv : Reaching api given [] r) (o : ObjectType) :
    Reaching api (given ++ [o]) (NamedType.object o).references
      { r with types := r.types ++ [.object o] } where
  objects := by rw [List.filterMap_append, inv.objects]; rfl
  fresh := by simpa [NamedType.object?] using inv.fresh
  resolved t ht hnone := by
    rcases List.mem_append.1 ht with ht | ht
    · exact inv.resolved t ht hnone
    · obtain rfl := List.mem_singleton.1 ht
      cases hnone
  origin t ht hnone := by
    rcases List.mem_append.1 ht with ht | ht
    · obtain ⟨u, hu, href⟩ := inv.origin t ht hnone
      exact ⟨u, List.mem_append_left _ hu, href⟩
    · obtain rfl := List.mem_singleton.1 ht
      cases hnone
  closed t ht m hm hfresh := by
    rcases List.mem_append.1 ht with ht | ht
    · exact absurd (inv.closed t ht m hm hfresh) List.not_mem_nil
    · obtain rfl := List.mem_singleton.1 ht
      exact hm
  pending m hm := ⟨.object o, by simp, hm⟩

/-! ## Runs -/

/-- **Nothing fails but for a fault in resolving, and in the end nothing is pending.** -/
theorem reach (h : api.Resolves fault) {names : List String} (inv : Reaching api given names r) :
    Meets fault (Reaching api given []) (Schema.reach api.catalogue api.inputs r names) := by
  induction r, names using Schema.reach.induct api.catalogue with
  | case1 r =>
    rw [Schema.reach]
    exact inv
  | case2 r n rest hn d hget ih =>
    have hd := h.get?_catalogue.1 hget
    obtain ⟨d', hd', hobject⟩ :=
      exists_definition_of_mem_freshNames h.toCatalogued (inv.mem_freshNames hn)
    have hsame : d' = d := Option.some.inj ((h.get?_catalogue.2 hd').symm.trans hget)
    subst hsame
    rw [Schema.reach, dif_pos hn, hget]
    refine (h.definitions n d' hd).bind fun t ht => ?_
    subst ht
    exact ih _ (inv.enter hn hd ((object?_trimmed d').trans hobject))
  | case3 r n rest hn hget ih =>
    obtain ⟨d, hd, -⟩ := exists_definition_of_mem_freshNames h.toCatalogued (inv.mem_freshNames hn)
    rw [h.get?_catalogue.2 hd] at hget
    cases hget
  | case4 r n rest hn ih =>
    rw [Schema.reach, dif_neg hn]
    exact ih (inv.skip hn)

theorem reachFirst (h : api.Resolves fault) (inv : Reaching api given [] r) (o : ObjectType) :
    Meets fault (Reaching api (given ++ [o]) [])
      (Schema.reachFirst api.catalogue api.inputs r (.object o)) :=
  (inv.put o).reach h

theorem reachObjects (h : api.Resolves fault) {l : List Declaration}
    (hl : ∀ d ∈ l, d ∈ api.objects.values) (inv : Reaching api given [] r) :
    Meets fault (Reaching api (given ++ l.map Declaration.toObject) [])
      (Schema.reachObjects api.catalogue api.inputs r (l.map Declaration.name)) := by
  induction l generalizing given r with
  | nil => rwa [List.map_nil, List.append_nil]
  | cons d rest ih =>
    obtain ⟨hd, hrest⟩ := List.forall_mem_cons.1 hl
    have hentry : (d.name, Definition.object d) ∈ api.definitions :=
      mem_definitions.2 (.inr (.inl ⟨d, hd, rfl, rfl⟩))
    rw [List.map_cons, List.map_cons, Schema.reachObjects, h.get?_catalogue.2 hentry]
    refine (h.definitions _ _ hentry).bind fun t ht => ?_
    subst ht
    refine (inv.reachFirst h d.toObject).bind fun r₁ inv₁ => ?_
    rw [List.append_cons]
    exact ih hrest inv₁

theorem reachRoot (h : api.Resolves fault) (inv : Reaching api given [] r) (name : String)
    {operations : NameMap Operation}
    (hroot : ∀ o ∈ operations.values, o ∈ api.query.values ++ api.mutation.values) :
    Meets fault (Reaching api (given ++ [api.root name operations]) [])
      (Schema.reachRoot api.catalogue api.inputs r (api.root name operations)) :=
  (h.roots name operations hroot).2.bind fun _ _ => inv.reachFirst h (api.root name operations)

end Reaching

/-! ## Building -/

/-- The roots of an API. -/
def roots (api : Api) : List ObjectType :=
  api.root "Query" api.query ::
    if api.mutation.isEmpty then [] else [api.root "Mutation" api.mutation]

/-- What the types of a built schema are. -/
structure Built (api : Api) (s : Schema) : Prop where
  objects : s.types.filterMap NamedType.object? =
    api.objects.values.map Declaration.toObject ++ api.roots
  distinct : ((s.types.filter fun t => t.object?.isNone).map NamedType.name).Nodup
  resolved : ∀ t ∈ s.types, t.object? = none →
    ∃ d, (t.name, d) ∈ api.definitions ∧ t = api.trimmed d
  origin : ∀ t ∈ s.types, t.object? = none → ∃ u ∈ s.types, t.name ∈ u.references
  closed : ∀ t ∈ s.types, ∀ n ∈ t.references, ∀ d, (n, d) ∈ api.definitions →
    d.resolved.object? = none → api.trimmed d ∈ s.types

theorem Reaching.built (h : api.Catalogued) {r : Reached}
    (inv : Reaching api (api.objects.values.map Declaration.toObject ++ api.roots) [] r) :
    api.Built ⟨r.types⟩ where
  objects := inv.objects
  distinct := (inv.fresh.nodup_iff.2 api.nodup_freshNames).of_append_left
  resolved := inv.resolved
  origin := inv.origin
  closed t ht n hn d hd hobject := by
    have hfresh := mem_freshNames_of_mem_definitions h hd hobject
    rcases List.mem_append.1 (inv.fresh.mem_iff.2 hfresh) with hfound | hfresh
    · obtain ⟨u, hu, rfl⟩ := List.mem_map.1 hfound
      obtain ⟨hu, hnone⟩ := List.mem_filter.1 hu
      obtain ⟨d', hd', hdu⟩ := inv.resolved u hu (Option.isNone_iff_eq_none.1 hnone)
      have hsame := h.get?_catalogue.2 hd
      rw [h.get?_catalogue.2 hd', Option.some.injEq] at hsame
      subst hsame
      exact hdu ▸ hu
    · exact absurd (inv.closed t ht n hn hfresh) List.not_mem_nil

theorem checkObjects_eq (h : api.Catalogued) {names : List String}
    (hnames : ∀ n ∈ names, n ∈ api.objects.keys) :
    checkObjects api.catalogue names = .ok () := by
  induction names with
  | nil => rfl
  | cons n rest ih =>
    obtain ⟨hn, hrest⟩ := List.forall_mem_cons.1 hnames
    have hcontains : api.catalogue.contains n = true := by
      refine OrderedMap.contains_eq_true_iff.2 ?_
      rw [h.keys_catalogue, h.map_fst_definitions]
      simp [hn]
    rw [checkObjects, if_pos hcontains]
    exact ih hrest

/-- **An API is built, unless there is a fault in resolving it.** -/
theorem build_meets (h : api.Resolves fault) : Meets fault api.Built (build api) := by
  have hquery : ∀ o ∈ api.query.values, o ∈ api.query.values ++ api.mutation.values :=
    fun o ho => List.mem_append_left _ ho
  have hmutation : ∀ o ∈ api.mutation.values, o ∈ api.query.values ++ api.mutation.values :=
    fun o ho => List.mem_append_right _ ho
  have hcheck : Meets fault (fun _ => True) (checkObjects api.catalogue api.objects.keys) :=
    .of_ok (checkObjects_eq h.toCatalogued fun _ => id) trivial
  have hobjects : Meets fault (Reaching api (api.objects.values.map Declaration.toObject) [])
      (Schema.reachObjects api.catalogue api.inputs ⟨[], api.freshNames⟩ api.objects.keys) := by
    have hrun := (Reaching.start api).reachObjects h (l := api.objects.values) fun _ => id
    rwa [h.map_name_objects, List.nil_append] at hrun
  rw [build, h.ofApi_eq]
  refine (h.roots "Query" api.query hquery).1.bind fun query hroot => ?_
  subst hroot
  by_cases hempty : api.mutation.isEmpty = true
  · rw [if_pos hempty]
    refine hcheck.bind fun _ _ => hobjects.bind fun r₁ inv₁ =>
      (inv₁.reachRoot h "Query" hquery).bind fun r₂ inv₂ => ?_
    have hroots : api.roots = [api.root "Query" api.query] := by rw [roots, if_pos hempty]
    exact Reaching.built h.toCatalogued (hroots ▸ inv₂)
  · rw [if_neg hempty]
    have hsecond : Meets fault (· = some (api.root "Mutation" api.mutation))
        (some <$> rootObject api.catalogue api.inputs "Mutation" api.mutation) :=
      (h.roots "Mutation" api.mutation hmutation).1.map fun _ => congrArg some
    refine hsecond.bind fun mutation hroot => ?_
    subst hroot
    refine hcheck.bind fun _ _ => hobjects.bind fun r₁ inv₁ =>
      (inv₁.reachRoot h "Query" hquery).bind fun r₂ inv₂ =>
        (inv₂.reachRoot h "Mutation" hmutation).bind fun r₃ inv₃ => ?_
    have hroots : api.roots = [api.root "Query" api.query, api.root "Mutation" api.mutation] := by
      rw [roots, if_neg hempty]
    rw [List.append_assoc] at inv₃
    exact Reaching.built h.toCatalogued (hroots ▸ inv₃)

/-! ## Closed APIs -/

/-- What the types of an assembled schema are. -/
structure Assembled (api : Api) (s : Schema) : Prop where
  objects : s.types.filterMap NamedType.object? =
    api.objects.values.map Declaration.toObject ++ api.roots
  distinct : ((s.types.filter fun t => t.object?.isNone).map NamedType.name).Nodup
  resolved : ∀ t ∈ s.types, t.object? = none → ∃ d, (t.name, d) ∈ api.definitions ∧ t = d.resolved
  origin : ∀ t ∈ s.types, t.object? = none → ∃ u ∈ s.types, t.name ∈ u.references
  closed : ∀ t ∈ s.types, ∀ n ∈ t.references, ∀ d, (n, d) ∈ api.definitions →
    d.resolved.object? = none → d.resolved ∈ s.types

theorem Built.assembled (h : api.Closed) {s : Schema} (hs : api.Built s) : api.Assembled s where
  objects := hs.objects
  distinct := hs.distinct
  resolved t ht hobject := by
    obtain ⟨d, hd, htrimmed⟩ := hs.resolved t ht hobject
    exact ⟨d, hd, htrimmed.trans (trimmed_eq h hd)⟩
  origin := hs.origin
  closed t ht n hn d hd hobject := trimmed_eq h hd ▸ hs.closed t ht n hn d hd hobject

/-- **A closed API is built.** -/
theorem build_of_closed (h : api.Closed) : ∃ s, build api = .ok s ∧ api.Assembled s := by
  obtain ⟨s, hbuild, hs⟩ := (build_meets h.resolves).exists_ok
  exact ⟨s, hbuild, hs.assembled h⟩

end Api

end CrudSchema
