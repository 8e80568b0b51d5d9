import CrudSchema.Proofs.Acceptance
import Mathlib.Data.List.TakeWhile

/-!
# Who is blamed for an operation

**Where a run stops** (`Derive.Stop`). A run that fails for an operation leaves a draft behind that
tells where it was: the types so far have all their operations, and of the type at hand there are
the queries before the one that was refused. Nothing but adding operations can fail for an operation
(`Derive.Adds.take_bind_of_duplicate`), and mutations of distinct types never meet, so it is a query
that is refused (`Derive.stop_of_foldTypes`).

**Who had it** (`Draft.RefusesQuery`). The draft has an operation of the name, and that is a query
of an earlier type. It is blamed together with the type at hand.

Main result: `duplicateOperation_blames`.
-/

namespace CrudSchema

open Naming

/-! ## Steps that add no operation -/

theorem Draft.Collision.not_duplicate {d : Draft} {a : Addition} {o s t : String}
    (hquery : a.query = []) (hmutation : a.mutation = []) :
    ¬ d.Collision a (.duplicateOperation o s t) := by
  intro h
  cases h with
  | query added => simp [hquery] at added
  | mutation added => simp [hmutation] at added

namespace Derive

variable {α β : Type} {d left : Draft} {a : Addition} {o s t : String}

/-- A fault for an operation comes from behind a step that adds none, and that step has left the
operations as they were. -/
theorem Adds.take_bind_of_duplicate {x : Derive α} {v : α} (hx : Adds x d a v)
    (hquery : a.query = []) (hmutation : a.mutation = []) {f : α → Derive β}
    (h : d.take (x >>= f) = (.error (.duplicateOperation o s t), left)) :
    ∃ d' : Draft, d'.query = d.query ∧ d'.mutation = d.mutation ∧
      d'.take (f v) = (.error (.duplicateOperation o s t), left) := by
  cases hx with
  | @fits d' room run grows =>
    rw [Draft.take_bind_ok run] at h
    refine ⟨d', OrderedMap.ext ?_, OrderedMap.ext ?_, h⟩
    · rw [grows.query, hquery, List.map_nil, List.append_nil]
    · rw [grows.mutation, hmutation, List.map_nil, List.append_nil]
  | collides room run collision =>
    rw [Draft.take_bind_error run] at h
    cases h
    exact absurd collision (Draft.Collision.not_duplicate hquery hmutation)

variable {known : List String} {logical : Bool} {decl : Declaration} {type : ClassifiedType}

theorem usable_of_duplicate
    (h : d.take (foldType known logical decl) = (.error (.duplicateOperation o s t), left)) :
    ∃ type, Usable known logical decl type := by
  rcases usable_or_fails known logical d decl with husable | ⟨e, d', run, hfails⟩
  · exact husable
  rw [run] at h
  cases h
  rcases hfails with hclass | ⟨_, _, he⟩ | ⟨kinds, hcollision⟩
  · rcases error_of_classifyType hclass with ⟨candidates, he⟩ | ⟨f, n, he⟩ <;> cases he
  · cases he
  · exact absurd hcollision (Draft.Collision.not_duplicate rfl rfl)

/-- A type whose folding fails for an operation gets as far as adding its operations. -/
theorem take_addOperations_of_duplicate (husable : Usable known logical decl type)
    (h : d.take (foldType known logical decl) = (.error (.duplicateOperation o s t), left)) :
    ∃ d' : Draft, d'.query = d.query ∧ d'.mutation = d.mutation ∧
      d'.take (addOperations type) = (.error (.duplicateOperation o s t), left) := by
  rw [foldType] at h
  obtain ⟨d₁, hq₁, hm₁, h₁⟩ := (adds_classifyType husable.1).take_bind_of_duplicate rfl rfl h
  obtain ⟨d₂, hq₂, hm₂, h₂⟩ := (adds_filterInput husable.2).take_bind_of_duplicate rfl rfl h₁
  obtain ⟨d₃, hq₃, hm₃, h₃⟩ := adds_sortInput.take_bind_of_duplicate rfl rfl h₂
  obtain ⟨d₄, hq₄, hm₄, h₄⟩ := (adds_registerInput _).take_bind_of_duplicate rfl rfl h₃
  obtain ⟨d₅, hq₅, hm₅, h₅⟩ := (adds_registerInput _).take_bind_of_duplicate rfl rfl h₄
  obtain ⟨d₆, hq₆, hm₆, h₆⟩ := adds_derived.take_bind_of_duplicate rfl rfl h₅
  refine ⟨d₆, ?_, ?_, ?_⟩
  · rw [hq₆, hq₅, hq₄, hq₃, hq₂, hq₁]
  · rw [hm₆, hm₅, hm₄, hm₃, hm₂, hm₁]
  · rcases hrun : d₆.take (addOperations type) with ⟨e | ⟨⟩, d'⟩
    · rw [Draft.take_bind_error hrun] at h₆
      exact h₆
    · rw [Draft.take_bind_ok hrun] at h₆
      cases h₆

/-! ## The query that is refused -/

theorem take_addQuery (d : Draft) (query : Operation) :
    d.take (addQuery query) =
      match d.query.get? query.name with
      | some present =>
        (.error (.duplicateOperation query.name present.typeName query.typeName), d)
      | none => (.ok (), { d with query := d.query.set query.name query }) := by
  rcases hget : d.query.get? query.name with _ | present
  · exact Draft.take_bind_ok (take_checkOperation_ok (OrderedMap.get?_eq_none_iff.1 hget) d) _
  · exact Draft.take_bind_error (take_checkOperation_error hget d) _

/-- If adding a query and going on fails, then either the query is refused or it is there when the
rest fails. -/
theorem take_addQuery_bind_of_error {query : Operation} {f : Unit → Derive β} {e : SynthesisError}
    (h : d.take (addQuery query >>= f) = (.error e, left)) :
    (left = d ∧ d.take (addQuery query) = (.error e, d)) ∨
      ∃ d' : Draft, d'.query.entries = d.query.entries ++ [(query.name, query)] ∧
        d'.mutation = d.mutation ∧ d'.take (f ()) = (.error e, left) := by
  have run := take_addQuery d query
  rcases hget : d.query.get? query.name with _ | present <;> simp only [hget] at run
  · rw [Draft.take_bind_ok run] at h
    exact .inr ⟨{ d with query := d.query.set query.name query },
      OrderedMap.entries_set_of_not_mem (OrderedMap.get?_eq_none_iff.1 hget), rfl, h⟩
  · rw [Draft.take_bind_error run] at h
    cases h
    exact .inl ⟨rfl, run⟩

/-- A query is refused for one of its name that is there. -/
theorem exists_holder_of_refused {query : Operation}
    (h : d.take (addQuery query) = (.error (.duplicateOperation o s t), left)) :
    query.name = o ∧ query.typeName = t ∧
      ∃ present, d.query.get? o = some present ∧ present.typeName = s := by
  rw [take_addQuery] at h
  rcases hget : d.query.get? query.name with _ | present <;> simp only [hget] at h <;> cases h
  exact ⟨rfl, rfl, present, hget, rfl⟩

/-- With room for its mutations, a type can only be refused one of its queries. -/
theorem exists_refused_query {e : SynthesisError}
    (hroom : (d.mutation.keys ++ type.mutations.map Operation.name).Nodup)
    (h : d.take (addOperations type) = (.error e, left)) :
    ∃ before query after, type.queries = before ++ query :: after ∧
      left.query.entries = d.query.entries ++ before.map (fun o => (o.name, o)) ∧
      left.mutation = d.mutation ∧ left.take (addQuery query) = (.error e, left) := by
  rcases take_addQuery_bind_of_error h with ⟨rfl, refused⟩ | ⟨d₁, hquery₁, hmutation₁, h₁⟩
  · exact ⟨[], _, [type.listQuery], rfl, (List.append_nil _).symm, rfl, refused⟩
  rcases take_addQuery_bind_of_error h₁ with ⟨rfl, refused⟩ | ⟨d₂, hquery₂, hmutation₂, h₂⟩
  · exact ⟨[type.singleQuery], _, [], rfl, hquery₁, hmutation₁, refused⟩
  have hadds : Adds (do
        addMutation type.createMutation
        addMutation type.updateMutation
        addMutation type.deleteMutation) d₂
      ({ mutation := [type.createMutation] } ++ ({ mutation := [type.updateMutation] } ++
        { mutation := [type.deleteMutation] })) () :=
    (adds_addMutation _).bind fun _ => (adds_addMutation _).bind fun _ => adds_addMutation _
  have hfits : d₂.Fits { mutation := type.mutations } :=
    ⟨by simp [Addition.typeNames], by simp [Addition.typeNames],
      by simpa using d₂.query.nodup_keys, by rwa [hmutation₂, hmutation₁]⟩
  obtain ⟨_, _, run⟩ := hadds.succeeds_iff.2 hfits
  rw [run] at h₂
  cases h₂

/-! ## Where a run stops -/

/-- A run was refused a query of the type at hand. The types before have all their operations in the
draft that is left, and that type has the queries before the one refused. -/
inductive Stop (known : List String) (logical : Bool) (decls : List Declaration) (d left : Draft)
    (e : SynthesisError) : Prop where
  | query {first rest : List Declaration} {decl : Declaration} {ts : List ClassifiedType}
      {type : ClassifiedType} {before after : List Operation} {refusal : Operation}
      (order : decls = first ++ decl :: rest)
      (done : List.Forall₂ (Usable known logical) first ts)
      (usable : Usable known logical decl type)
      (split : type.queries = before ++ refusal :: after)
      (query : left.query.entries = d.query.entries ++
        (ts.flatMap ClassifiedType.queries ++ before).map fun o => (o.name, o))
      (mutation : left.mutation.entries = d.mutation.entries ++
        (ts.flatMap ClassifiedType.mutations).map fun o => (o.name, o))
      (refused : left.take (addQuery refusal) = (.error e, left)) :
      Stop known logical decls d left e

/-- A stop among later types is one of the whole run. -/
theorem Stop.cons {rest : List Declaration} {d' : Draft} {e : SynthesisError}
    (husable : Usable known logical decl type)
    (grows : d.Grows (typeAddition logical d.kinds (missingEnum d) type) d')
    (h : Stop known logical rest d' left e) : Stop known logical (decl :: rest) d left e := by
  cases h with
  | query order done usable split query mutation refused =>
    refine .query (by rw [order, List.cons_append]) (.cons husable done) usable split ?_ ?_ refused
    · rw [query, grows.query, List.append_assoc, ← List.map_append, List.flatMap_cons,
        ← List.append_assoc]
      rfl
    · rw [mutation, grows.mutation, List.append_assoc, ← List.map_append, List.flatMap_cons]
      rfl

theorem map_name_mutations_of_usable (h : Usable known logical decl type) :
    type.mutations.map Operation.name = mutationNames decl.name := by
  obtain rfl := (classifyType_eq_ok_iff.1 h.1).1
  rfl

/-- **A run that fails for an operation stops at a query.** -/
theorem stop_of_foldTypes {decls : List Declaration}
    (hroom : (d.mutation.keys ++ (decls.map Declaration.name).flatMap mutationNames).Nodup)
    (h : d.take (foldTypes known logical decls) = (.error (.duplicateOperation o s t), left)) :
    Stop known logical decls d left (.duplicateOperation o s t) := by
  induction decls generalizing d with
  | nil => cases h
  | cons decl rest ih =>
    rw [List.map_cons, List.flatMap_cons, ← List.append_assoc] at hroom
    rw [foldTypes] at h
    rcases hrun : d.take (foldType known logical decl) with ⟨e | ⟨⟩, d₁⟩
    · rw [Draft.take_bind_error hrun] at h
      cases h
      obtain ⟨type, husable⟩ := usable_of_duplicate hrun
      obtain ⟨d', hquery, hmutation, hoperations⟩ := take_addOperations_of_duplicate husable hrun
      rw [← map_name_mutations_of_usable husable, ← hmutation] at hroom
      obtain ⟨before, query, after, split, hentries, hleft, refused⟩ :=
        exists_refused_query hroom.of_append_left hoperations
      refine .query (show _ = [] ++ decl :: rest from rfl) .nil husable split ?_ ?_ refused
      · rw [hentries, hquery, List.flatMap_nil, List.nil_append]
      · rw [hleft, hmutation, List.flatMap_nil, List.map_nil, List.append_nil]
    · rw [Draft.take_bind_ok hrun] at h
      obtain ⟨type, husable⟩ := usable_of_foldType hrun
      obtain ⟨-, -, grows⟩ := (adds_foldType husable.1 husable.2).grows_of_ok hrun
      refine (ih ?_ h).cons husable grows
      rw [grows.mutation_keys]
      exact map_name_mutations_of_usable husable ▸ hroom

end Derive

/-! ## Who had the operation -/

/-- The draft has all operations of the earlier types, each query with its type, and those queries
of `b` that come before `o`. It refuses the query `o` of `b` for the one that `a` has, and has none
of the mutations of `b`. -/
structure Draft.RefusesQuery (left : Draft) (earlier : List String) (o a b : String) : Prop where
  own : o ∈ queryNames b
  query : left.query.entries.map (fun e => (e.1, e.2.typeName)) =
    earlier.flatMap (fun t => (queryNames t).map (·, t)) ++
      ((queryNames b).takeWhile (· ≠ o)).map (·, b)
  mutation : left.mutation.keys = earlier.flatMap mutationNames
  refused : ∃ query : Operation, query.name = o ∧ query.typeName = b ∧
    left.take (Derive.addQuery query) = (.error (.duplicateOperation o a b), left)
  spared : ∀ m ∈ mutationNames b, m ∉ left.mutation.keys

namespace Draft.RefusesQuery

variable {left : Draft} {earlier : List String} {o a b : String}

theorem query_keys (h : left.RefusesQuery earlier o a b) :
    left.query.keys = earlier.flatMap queryNames ++ (queryNames b).takeWhile (· ≠ o) := by
  have hkeys := congrArg (List.map Prod.fst) h.query
  rw [List.map_append, List.map_flatMap, List.map_map] at hkeys
  simpa [OrderedMap.keys, Function.comp_def] using hkeys

/-- The query is refused for one of an earlier type. -/
theorem holder (h : left.RefusesQuery earlier o a b) : a ∈ earlier ∧ o ∈ queryNames a := by
  obtain ⟨query, -, -, refused⟩ := h.refused
  obtain ⟨-, -, present, hget, rfl⟩ := Derive.exists_holder_of_refused refused
  have hmem : (o, present.typeName) ∈ left.query.entries.map fun e => (e.1, e.2.typeName) :=
    List.mem_map.2 ⟨_, OrderedMap.get?_eq_some_iff.1 hget, rfl⟩
  rw [h.query, List.mem_append] at hmem
  rcases hmem with hmem | hmem
  · obtain ⟨s, hs, hmem⟩ := List.mem_flatMap.1 hmem
    obtain ⟨n, hn, heq⟩ := List.mem_map.1 hmem
    cases heq
    exact ⟨hs, hn⟩
  · obtain ⟨n, hn, heq⟩ := List.mem_map.1 hmem
    cases heq
    simpa using List.mem_takeWhile_imp hn

/-- The queries that are there are distinct. -/
theorem nodup (h : left.RefusesQuery earlier o a b) :
    (earlier.flatMap queryNames ++ (queryNames b).takeWhile (· ≠ o)).Nodup :=
  h.query_keys ▸ left.query.nodup_keys

/-- The earlier types have no query in common. -/
theorem earlier_apart (h : left.RefusesQuery earlier o a b) (hearlier : earlier.Nodup)
    {s t : String} (hs : s ∈ earlier) (ht : t ∈ earlier) (hst : s ≠ t) :
    List.Disjoint (queryNames s) (queryNames t) := by
  have hapart := (nodup_flatMap_queryNames_iff hearlier).1 h.nodup.of_append_left
  obtain ⟨hcase, hplural⟩ := hapart s hs t ht hst
  exact queryNames_disjoint_iff.2 ⟨hcase, hplural, (hapart t ht s hs hst.symm).2⟩

/-- The types meet in one of three ways. Had they the same list query, then they would have the same
single query, which is added before. -/
theorem meeting (h : left.RefusesQuery earlier o a b) :
    (o = Text.lower b ∧ Text.lower a = Text.lower b) ∨
      (o = Text.lower b ∧ Text.lower a ++ "s" = Text.lower b) ∨
        (o = Text.lower a ∧ Text.lower a = Text.lower b ++ "s") := by
  obtain ⟨ha, hoa⟩ := h.holder
  have hob := h.own
  simp only [queryNames, singleQuery, listQuery, List.mem_cons, List.not_mem_nil, or_false]
    at hoa hob
  rcases hoa with hoa | hoa <;> rcases hob with hob | hob
  · exact .inl ⟨hob, hoa.symm.trans hob⟩
  · exact .inr (.inr ⟨hoa, hoa.symm.trans hob⟩)
  · exact .inr (.inl ⟨hob, hoa.symm.trans hob⟩)
  · exfalso
    have hlower : Text.lower a = Text.lower b := append_self_inj.1 (hoa.symm.trans hob)
    have hearlier : Text.lower b ∈ earlier.flatMap queryNames :=
      List.mem_flatMap.2 ⟨a, ha, hlower ▸ List.mem_cons_self ..⟩
    have hnow : Text.lower b ∈ (queryNames b).takeWhile (· ≠ o) := by
      rw [hob, queryNames, singleQuery, List.takeWhile_cons_of_pos
        (by simpa using (append_s_ne (Text.lower b)).symm)]
      exact List.mem_cons_self ..
    exact (List.nodup_append.1 h.nodup).2.2 _ hearlier _ hnow rfl

end Draft.RefusesQuery

/-! ## Blame -/

namespace Derive

variable {type : ClassifiedType}

/-- A type's queries before one of them, by name. -/
theorem takeWhile_queryNames {before after : List Operation} {query : Operation}
    (split : type.queries = before ++ query :: after) :
    (queryNames type.name).takeWhile (· ≠ query.name) = before.map Operation.name := by
  have hnames : queryNames type.name =
      before.map Operation.name ++ query.name :: after.map Operation.name := by
    rw [← List.map_cons, ← List.map_append, ← split]
    rfl
  have hnodup := queryNames_nodup type.name
  rw [hnames, List.nodup_append] at hnodup
  have hbefore : ∀ n ∈ before.map Operation.name, n ≠ query.name := fun n hn =>
    hnodup.2.2 n hn _ (List.mem_cons_self ..)
  rw [hnames, List.takeWhile_append_of_pos (by simpa using hbefore),
    List.takeWhile_cons_of_neg (by simp), List.append_nil]

/-- What a run from the start leaves where it stops. -/
theorem Stop.refusesQuery {known : List String} {logical : Bool} {decls : List Declaration}
    {left : Draft} {o a b : String} (hnames : (decls.map Declaration.name).Nodup)
    (h : Stop known logical decls (Draft.start known) left (.duplicateOperation o a b)) :
    ∃ earlier later, decls.map Declaration.name = earlier ++ b :: later ∧
      left.RefusesQuery earlier o a b := by
  cases h with
  | @query first rest decl ts type before after refusal order done usable split query mutation
      refused =>
    obtain ⟨rfl, rfl, -⟩ := exists_holder_of_refused refused
    have htypes : ∀ p ∈ type.queries, p.typeName = type.name ∧ p.name ∈ queryNames type.name :=
      fun p hp => mem_queries hp
    rw [split] at htypes
    obtain ⟨htype, hown⟩ := htypes refusal (by simp)
    have hdecl : decl.name = refusal.typeName := by
      rw [htype, ClassifiedType.name, (classifyType_eq_ok_iff.1 usable.1).1]
    rw [order, List.map_append, List.map_cons, hdecl] at hnames ⊢
    have hmutation : left.mutation.keys = (first.map Declaration.name).flatMap mutationNames := by
      rw [← map_name_of_usable done, ← map_name_mutations, OrderedMap.keys, mutation]
      simp [Draft.start, OrderedMap.empty, Function.comp_def]
    refine ⟨_, _, rfl, htype ▸ hown, ?_, hmutation, ⟨refusal, rfl, rfl, refused⟩, fun m hm => ?_⟩
    · have hbefore : before.map (fun p => (p.name, p.typeName)) =
          ((queryNames refusal.typeName).takeWhile (· ≠ refusal.name)).map
            (·, refusal.typeName) := by
        rw [htype, takeWhile_queryNames split, List.map_map]
        exact List.map_congr_left fun p hp =>
          congrArg (p.name, ·) (htypes p (List.mem_append_left _ hp)).1
      have hdone : (ts.flatMap ClassifiedType.queries).map (fun p => (p.name, p.typeName)) =
          (first.map Declaration.name).flatMap fun t => (queryNames t).map (·, t) := by
        rw [← map_name_of_usable done, List.map_flatMap, List.flatMap_map]
        rfl
      rw [query, ← hbefore, ← hdone, ← List.map_append]
      simp [Draft.start, OrderedMap.empty, Function.comp_def]
    · rw [hmutation]
      intro hmem
      obtain ⟨s, hs, hms⟩ := List.mem_flatMap.1 hmem
      exact (List.nodup_append.1 hnames).2.2 s hs _ (List.mem_cons_self ..)
        (mutationNames_disjoint hms hm)

end Derive

/-- **Blame for an operation is laid right.** If a map does not compile for an operation `o` of
types `a` and `b`, then these are different types of it, `a` before `b`, that have the query `o` in
common in one of three ways. No two types before `b` have a query in common, and what the run leaves
behind is what had been added when the query `o` of `b` was refused, so no mutation was. -/
theorem duplicateOperation_blames {documents : List Document} {types : TypeMap}
    {options : SynthesisOptions} {o a b : String} (hmerge : (merge documents).result = .ok types)
    (hfault : (compile options types).result = .error (.duplicateOperation o a b)) :
    ∃ earlier later, types.keys = earlier ++ b :: later ∧ a ∈ earlier ∧ a ≠ b ∧
      o ∈ queryNames a ∧ o ∈ queryNames b ∧
      ((o = Text.lower b ∧ Text.lower a = Text.lower b) ∨
        (o = Text.lower b ∧ Text.lower a ++ "s" = Text.lower b) ∨
        (o = Text.lower a ∧ Text.lower a = Text.lower b ++ "s")) ∧
      (∀ s ∈ earlier, ∀ t ∈ earlier, s ≠ t → List.Disjoint (queryNames s) (queryNames t)) ∧
      (draftOf options types).1 = .error (.duplicateOperation o a b) ∧
      (draftOf options types).2.RefusesQuery earlier o a b := by
  have hm := merged_of_merge hmerge
  by_cases hne : types.keys = []
  · rw [compile_empty hne] at hfault
    cases hfault
  rw [compile_result hne] at hfault
  rcases hrun : draftOf options types with ⟨e | ⟨⟩, left⟩ <;> rw [hrun] at hfault <;> cases hfault
  have hroom : ((Draft.start types.keys).mutation.keys ++
      (types.values.map Declaration.name).flatMap mutationNames).Nodup := by
    simpa [Draft.start, OrderedMap.keys, OrderedMap.empty] using
      nodup_flatMap_mutationNames hm.nodup_names
  obtain ⟨earlier, later, order, hrefuses⟩ :=
    (Derive.stop_of_foldTypes hroom hrun).refusesQuery hm.nodup_names
  rw [← hm.keys_eq] at order
  have hnodup := types.nodup_keys
  rw [order, List.nodup_append] at hnodup
  obtain ⟨ha, hoa⟩ := hrefuses.holder
  exact ⟨earlier, later, order, ha, hnodup.2.2 a ha b (List.mem_cons_self ..), hoa, hrefuses.own,
    hrefuses.meeting, fun s hs t ht => hrefuses.earlier_apart hnodup.1 hs ht, rfl, hrefuses⟩

/-- The last type would have a query in common with either of the others. -/
def itemsBesideOthers : List Document :=
  [{ types := ["ITEMSS", "Item", "Items"].map fun n =>
      { name := n, fields := [⟨"id", .named "ID", false⟩] } }]

theorem items_refused_for_item : ∃ types, (merge itemsBesideOthers).result = .ok types ∧
    (compile {} types).result = .error (.duplicateOperation "items" "Item" "Items") ∧
    (draftOf {} types).2.RefusesQuery ["ITEMSS", "Item"] "items" "Item" "Items" := by
  obtain ⟨types, hmerge⟩ : ∃ types, (merge itemsBesideOthers).result = .ok types := ⟨_, rfl⟩
  have hkeys : types.keys = ["ITEMSS", "Item", "Items"] := by
    cases hmerge
    decide
  have hfault :
      (compile {} types).result = .error (.duplicateOperation "items" "Item" "Items") := by
    cases hmerge
    decide
  obtain ⟨earlier, later, order, -, -, -, -, -, -, -, hrefuses⟩ :=
    duplicateOperation_blames hmerge hfault
  obtain ⟨rfl, -⟩ : earlier = ["ITEMSS", "Item"] ∧ later = [] := by
    simpa [hkeys, List.cons_eq_append_iff] using order
  exact ⟨types, hmerge, hfault, hrefuses⟩

end CrudSchema
