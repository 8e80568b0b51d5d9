import CrudSchema.Proofs.Derivation

/-!
# What a run over all types leaves behind

**Usable types** (`Derive.Usable`). A declaration can be folded into a draft with room for it if it
can be classified and none of its filterable fields has the name of a combinator in use.

**The sum** (`additions`). What some types add, one after the other: the families of the kinds they
use, each once, the four inputs and the operations of each type, and the enum of sort directions
(`additions_inputs_perm`, `additions_query`, `additions_mutation`, `additions_enums`).

**Runs** (`Derive.succeeds_iff`, `Derive.grows_of_ok`). A run succeeds exactly when all its types
are usable and there is room for the sum, and then the sum is what it added. A run that fails does
so at the first fault: a declaration that is not usable, or a collision among what had been added by
then (`Derive.fault_of_error`).
-/

namespace CrudSchema

namespace Derive

/-! ## The sum of some types -/

/-- What some types add where some kinds and enums are there. -/
def additions (logical : Bool) (kinds : List ScalarKind) (enums : List EnumType) :
    List ClassifiedType → Addition
  | [] => {}
  | t :: rest =>
    typeAddition logical kinds enums t ++
      additions logical (kinds ++ freshKinds kinds t.filterKinds) [] rest

theorem freshKinds_append (present a b : List ScalarKind) :
    freshKinds present (a ++ b) =
      freshKinds present a ++ freshKinds (present ++ freshKinds present a) b := by
  induction a generalizing present with
  | nil => simp [freshKinds]
  | cons k rest ih =>
    rw [List.cons_append, freshKinds, freshKinds]
    by_cases h : k ∈ present
    · rw [if_pos h, if_pos h, ih]
    · rw [if_neg h, if_neg h, ih, List.cons_append, List.append_assoc, List.singleton_append]

theorem mem_freshKinds {present kinds : List ScalarKind} {kind : ScalarKind} :
    kind ∈ freshKinds present kinds ↔ kind ∈ kinds ∧ kind ∉ present := by
  induction kinds generalizing present with
  | nil => simp [freshKinds]
  | cons k rest ih =>
    rw [freshKinds]
    by_cases h : k ∈ present
    · rw [if_pos h, ih, List.mem_cons]
      constructor
      · rintro ⟨hr, hp⟩
        exact ⟨.inr hr, hp⟩
      · rintro ⟨rfl | hr, hp⟩
        · exact absurd h hp
        · exact ⟨hr, hp⟩
    · rw [if_neg h, List.mem_cons, ih, List.mem_append, List.mem_singleton, List.mem_cons]
      by_cases hk : kind = k
      · subst hk; simp [h]
      · simp [hk]

theorem nodup_freshKinds (present kinds : List ScalarKind) : (freshKinds present kinds).Nodup := by
  induction kinds generalizing present with
  | nil => simp [freshKinds]
  | cons k rest ih =>
    rw [freshKinds]
    by_cases h : k ∈ present
    · rw [if_pos h]
      exact ih present
    · rw [if_neg h, List.nodup_cons]
      refine ⟨fun hk => ?_, ih _⟩
      exact (mem_freshKinds.1 hk).2 (by simp)

variable {logical : Bool} {kinds : List ScalarKind} {enums : List EnumType}
  {ts : List ClassifiedType}

theorem additions_kinds :
    (additions logical kinds enums ts).kinds =
      freshKinds kinds (ts.flatMap ClassifiedType.filterKinds) := by
  induction ts generalizing kinds enums with
  | nil => rfl
  | cons t rest ih =>
    rw [additions, Addition.kinds_append, ih, List.flatMap_cons, freshKinds_append]
    rfl

theorem additions_inputs_perm (logical : Bool) (kinds : List ScalarKind) (enums : List EnumType)
    (ts : List ClassifiedType) :
    (additions logical kinds enums ts).inputs.Perm
      ((families (freshKinds kinds (ts.flatMap ClassifiedType.filterKinds))).inputs ++
        ts.flatMap fun t => t.inputs logical) := by
  induction ts generalizing kinds enums with
  | nil => exact .refl _
  | cons t rest ih =>
    rw [additions, Addition.inputs_append, List.flatMap_cons, List.flatMap_cons, freshKinds_append]
    simp only [typeAddition, families, List.flatMap_append, List.append_assoc]
    refine List.Perm.append_left _ ?_
    refine ((ih _ []).append_left (t.inputs logical)).trans ?_
    rw [families, ← List.append_assoc, ← List.append_assoc]
    exact List.perm_append_comm.append_right _

theorem additions_query :
    (additions logical kinds enums ts).query = ts.flatMap ClassifiedType.queries := by
  induction ts generalizing kinds enums with
  | nil => rfl
  | cons t rest ih => rw [additions, Addition.query_append, ih, List.flatMap_cons]; rfl

theorem additions_mutation :
    (additions logical kinds enums ts).mutation = ts.flatMap ClassifiedType.mutations := by
  induction ts generalizing kinds enums with
  | nil => rfl
  | cons t rest ih => rw [additions, Addition.mutation_append, ih, List.flatMap_cons]; rfl

theorem additions_derived :
    (additions logical kinds enums ts).derived = ts.map ClassifiedType.derivedTypes := by
  induction ts generalizing kinds enums with
  | nil => rfl
  | cons t rest ih => rw [additions, Addition.derived_append, ih, List.map_cons]; rfl

theorem additions_enums (h : ts ≠ []) : (additions logical kinds enums ts).enums = enums := by
  have hnil : ∀ (kinds : List ScalarKind) (ts : List ClassifiedType),
      (additions logical kinds [] ts).enums = [] := by
    intro kinds ts
    induction ts generalizing kinds with
    | nil => rfl
    | cons t rest ih => rw [additions, Addition.enums_append, ih]; rfl
  cases ts with
  | nil => exact absurd rfl h
  | cons t rest =>
    rw [additions, Addition.enums_append, hnil, List.append_nil]
    rfl

/-! ## Runs -/

variable {known : List String} {d d' : Draft}

/-- The declaration can be classified as `t`, and no combinator in use clashes. -/
def Usable (known : List String) (logical : Bool) (decl : Declaration) (t : ClassifiedType) :
    Prop :=
  CrudSchema.classifyType known decl = .ok t ∧ (logical = true → t.clash? = none)

theorem missingEnum_of_grows_type {t : ClassifiedType}
    (h : d.Grows (typeAddition logical d.kinds (missingEnum d) t) d') : missingEnum d' = [] := by
  have hmem : Naming.sortDirection ∈ d'.enums.keys := by
    have hkeys : d'.enums.keys = d.enums.keys ++ (missingEnum d).map EnumType.name := by
      simp [OrderedMap.keys, h.enums, typeAddition, Function.comp_def]
    rw [hkeys, List.mem_append]
    by_cases hd : Naming.sortDirection ∈ d.enums.keys
    · exact .inl hd
    · rw [missingEnum, OrderedMap.contains_eq_false_iff.2 hd]
      exact .inr (by simp [sortDirections])
  rw [missingEnum, OrderedMap.contains_eq_true_iff.2 hmem]
  rfl

/-- **Usable types add their sum.** -/
theorem adds_foldTypes {decls : List Declaration}
    (h : List.Forall₂ (Usable known logical) decls ts) :
    Adds (foldTypes known logical decls) d (additions logical d.kinds (missingEnum d) ts) () := by
  induction h generalizing d with
  | nil => exact .pure ()
  | cons hx _ ih =>
    refine (adds_foldType hx.1 hx.2).bind fun {d'} grows => ?_
    have hkinds : d'.kinds = d.kinds ++ freshKinds d.kinds _ := grows.kinds
    rw [← hkinds, ← missingEnum_of_grows_type grows]
    exact ih

/-- Why a run can fail: a declaration that cannot be classified, a clash with a combinator, or a
collision among what the first types add with the families that the next one needs. -/
inductive Fault (known : List String) (logical : Bool) (decls : List Declaration) (d : Draft) :
    SynthesisError → Prop where
  | unclassified {decl : Declaration} {e : SynthesisError} (mem : decl ∈ decls)
      (fault : CrudSchema.classifyType known decl = .error e) : Fault known logical decls d e
  | clash (typeName combinator : String) :
      Fault known logical decls d (.combinatorClash typeName combinator)
  | collision {first rest : List Declaration} {ts : List ClassifiedType} {e : SynthesisError}
      (order : decls = first ++ rest) (usable : List.Forall₂ (Usable known logical) first ts)
      (more : List ScalarKind)
      (collision : d.Collision (additions logical d.kinds (missingEnum d) ts ++
        families
          (freshKinds (d.kinds ++ (additions logical d.kinds (missingEnum d) ts).kinds) more)) e) :
      Fault known logical decls d e

/-- A type is usable, or folding it fails before it adds more than families. -/
theorem usable_or_fails (known : List String) (logical : Bool) (d : Draft) (decl : Declaration) :
    (∃ t, Usable known logical decl t) ∨
      ∃ e d', d.take (foldType known logical decl) = (.error e, d') ∧
        (CrudSchema.classifyType known decl = .error e ∨
          (∃ typeName combinator, e = .combinatorClash typeName combinator) ∨
          ∃ kinds, d.Collision (families (freshKinds d.kinds kinds)) e) := by
  rcases hclass : CrudSchema.classifyType known decl with e | t
  · exact .inr ⟨e, d, take_foldType_unclassified hclass, .inl rfl⟩
  · by_cases hclash : logical = true → t.clash? = none
    · exact .inl ⟨t, hclass, hclash⟩
    · rw [Classical.not_imp] at hclash
      obtain ⟨hlogical, hclash⟩ := hclash
      obtain ⟨combinator, hclash⟩ := Option.ne_none_iff_exists'.1 hclash
      obtain ⟨e, d', run, he | hcollision⟩ := take_foldType_clash (d := d) hclass hlogical hclash
      · exact .inr ⟨e, d', run, .inr (.inl ⟨_, _, he⟩)⟩
      · exact .inr ⟨e, d', run, .inr (.inr ⟨_, hcollision⟩)⟩

theorem usable_of_foldType {decl : Declaration}
    (h : d.take (foldType known logical decl) = (.ok (), d')) :
    ∃ t, Usable known logical decl t := by
  rcases usable_or_fails known logical d decl with husable | ⟨e, d₁, run, -⟩
  · exact husable
  · rw [run] at h
    cases h

/-- A type is usable, or folding it fails at a fault of the run. -/
theorem usable_or_fault (known : List String) (logical : Bool) (d : Draft) (decl : Declaration)
    (rest : List Declaration) :
    (∃ t, Usable known logical decl t) ∨
      ∃ e d', d.take (foldType known logical decl) = (.error e, d') ∧
        Fault known logical (decl :: rest) d e := by
  rcases usable_or_fails known logical d decl with
    husable | ⟨e, d', run, hclass | ⟨typeName, combinator, rfl⟩ | ⟨kinds, hcollision⟩⟩
  · exact .inl husable
  · exact .inr ⟨e, d', run, .unclassified (List.mem_cons_self ..) hclass⟩
  · exact .inr ⟨_, d', run, .clash typeName combinator⟩
  · refine .inr ⟨e, d', run, .collision (show _ = [] ++ _ from rfl) .nil kinds ?_⟩
    rw [additions, Addition.empty_append]
    simpa using hcollision

/-- A fault of the later types is one of the whole run. -/
theorem Fault.cons {decl : Declaration} {t : ClassifiedType} {rest : List Declaration}
    {e : SynthesisError} (husable : Usable known logical decl t)
    (grows : d.Grows (typeAddition logical d.kinds (missingEnum d) t) d')
    (h : Fault known logical rest d' e) : Fault known logical (decl :: rest) d e := by
  cases h with
  | unclassified mem fault => exact .unclassified (List.mem_cons_of_mem _ mem) fault
  | clash typeName combinator => exact .clash typeName combinator
  | @collision first rest' ts _ order usable more collision =>
    refine .collision (show _ = (decl :: first) ++ rest' by rw [order, List.cons_append])
      (.cons husable usable) more ?_
    have hkinds : d'.kinds = d.kinds ++ freshKinds d.kinds t.filterKinds := grows.kinds
    rw [missingEnum_of_grows_type grows, hkinds] at collision
    have hwhole := collision.of_grows grows
    rw [← Addition.append_assoc] at hwhole
    rw [additions, Addition.kinds_append, ← List.append_assoc]
    exact hwhole

theorem usable_of_ok {decls : List Declaration}
    (h : d.take (foldTypes known logical decls) = (.ok (), d')) :
    ∃ ts, List.Forall₂ (Usable known logical) decls ts := by
  induction decls generalizing d with
  | nil => exact ⟨[], .nil⟩
  | cons decl rest ih =>
    rw [foldTypes] at h
    rcases hrun : d.take (foldType known logical decl) with ⟨e | ⟨⟩, d₁⟩
    · rw [Draft.take_bind_error hrun] at h
      cases h
    · rw [Draft.take_bind_ok hrun] at h
      obtain ⟨t, ht⟩ := usable_of_foldType hrun
      obtain ⟨ts, hts⟩ := ih h
      exact ⟨t :: ts, .cons ht hts⟩

/-- **A run that succeeds has added the sum of its types.** -/
theorem grows_of_ok {decls : List Declaration}
    (h : d.take (foldTypes known logical decls) = (.ok (), d')) :
    ∃ ts, List.Forall₂ (Usable known logical) decls ts ∧
      d.Fits (additions logical d.kinds (missingEnum d) ts) ∧
      d.Grows (additions logical d.kinds (missingEnum d) ts) d' := by
  obtain ⟨ts, hts⟩ := usable_of_ok h
  obtain ⟨room, -, grows⟩ := (adds_foldTypes hts).grows_of_ok h
  exact ⟨ts, hts, room, grows⟩

/-- **A run succeeds exactly when its types are usable and there is room for their sum.** -/
theorem succeeds_iff {decls : List Declaration} :
    (∃ d', d.take (foldTypes known logical decls) = (.ok (), d')) ↔
      ∃ ts, List.Forall₂ (Usable known logical) decls ts ∧
        d.Fits (additions logical d.kinds (missingEnum d) ts) := by
  constructor
  · rintro ⟨d', run⟩
    obtain ⟨ts, hts, room, -⟩ := grows_of_ok run
    exact ⟨ts, hts, room⟩
  · rintro ⟨ts, hts, room⟩
    obtain ⟨⟨⟩, d', run⟩ := (adds_foldTypes hts).succeeds_iff.2 room
    exact ⟨d', run⟩

/-- **A run that fails does so at a fault.** -/
theorem fault_of_error {decls : List Declaration} {e : SynthesisError}
    (h : d.take (foldTypes known logical decls) = (.error e, d')) :
    Fault known logical decls d e := by
  induction decls generalizing d with
  | nil => cases h
  | cons decl rest ih =>
    rw [foldTypes] at h
    rcases usable_or_fault known logical d decl rest with
      ⟨t, ht⟩ | ⟨e', d₁, run, hfault⟩
    · cases adds_foldType (d := d) ht.1 ht.2 with
      | fits room run grows =>
        rw [Draft.take_bind_ok run] at h
        exact .cons ht grows (ih h)
      | collides room run collision =>
        rw [Draft.take_bind_error run] at h
        cases h
        refine .collision (show _ = [decl] ++ rest from rfl) (.cons ht .nil) [] ?_
        rw [additions, additions, Addition.append_empty]
        exact collision.append
    · rw [Draft.take_bind_error run] at h
      cases h
      exact hfault

end Derive

end CrudSchema
