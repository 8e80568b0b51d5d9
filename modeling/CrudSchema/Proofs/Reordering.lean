import CrudSchema.Generation
import CrudSchema.Proofs.Content
import CrudSchema.Proofs.Merging

/-!
# Documents in another order

**Merged maps** (`TypeMap.SameShapes`). Consistency is a condition on pairs, so documents merge in
any order or in none, and the maps have the same names with the same shapes (`merge_perm`).

**Descriptions.** Of the declarations of a name the first is kept, and its description with it. So
the maps agree for all orders exactly when the documents that declare a name begin with the same
description of it (`merge_agrees_iff`).

**Deriving** (`Compiled.agrees`). Nothing is derived from a description: a declaration that is
described otherwise (`Declaration.describedAs`) is classified alike and gives the same inputs and
operations. Which kinds are in use and which names are taken are conditions on the names and shapes
of a map, so the APIs of maps with the same shapes agree (`synthesize_perm`).
-/

namespace CrudSchema

open Derive

/-! ## Maps with the same shapes -/

/-- The maps declare the same names, each with one shape. -/
def TypeMap.SameShapes (types types' : TypeMap) : Prop :=
  ∀ n, (types.get? n).map Declaration.shape = (types'.get? n).map Declaration.shape

/-- The declaration with another description. -/
def Declaration.describedAs (d : Declaration) (description : Option String) : Declaration :=
  { d with description }

/-- A description is all that name and shape leave open. -/
theorem Declaration.eq_describedAs {d d' : Declaration} (hname : d'.name = d.name)
    (hshape : d'.shape = d.shape) : d' = d.describedAs d'.description := by
  cases d
  cases d'
  cases hname
  cases hshape
  rfl

namespace TypeMap.SameShapes

variable {types types' : TypeMap}

theorem symm (h : types.SameShapes types') : types'.SameShapes types := fun n => (h n).symm

theorem mem_keys_iff (h : types.SameShapes types') {n : String} :
    n ∈ types.keys ↔ n ∈ types'.keys := by
  have hnone : types.get? n = none ↔ types'.get? n = none := by
    rw [← Option.map_eq_none_iff, h n, Option.map_eq_none_iff]
  rw [OrderedMap.get?_eq_none_iff, OrderedMap.get?_eq_none_iff] at hnone
  exact not_iff_not.1 hnone

theorem keys_perm (h : types.SameShapes types') : types.keys.Perm types'.keys :=
  (List.perm_ext_iff_of_nodup types.nodup_keys types'.nodup_keys).2 fun _ => h.mem_keys_iff

/-- A declaration of one map is in the other, perhaps described otherwise. -/
theorem exists_describedAs (h : types.SameShapes types') (hm : Merged types)
    (hm' : Merged types') {d : Declaration} (hd : d ∈ types.values) :
    ∃ description, d.describedAs description ∈ types'.values := by
  obtain ⟨n, hentry⟩ := OrderedMap.mem_values.1 hd
  have hshape := h n
  rw [OrderedMap.get?_eq_some_iff.2 hentry, Option.map_some] at hshape
  obtain ⟨d', hget, hfields⟩ := Option.map_eq_some_iff.1 hshape.symm
  have hentry' := OrderedMap.get?_eq_some_iff.1 hget
  have hname : d'.name = d.name := (hm'.named _ hentry').symm.trans (hm.named _ hentry)
  refine ⟨d'.description, ?_⟩
  rw [← Declaration.eq_describedAs hname hfields]
  exact OrderedMap.mem_values.2 ⟨n, hentry'⟩

end TypeMap.SameShapes

/-! ## Merging in another order -/

theorem allSourced_perm {documents documents' : List Document} (h : documents.Perm documents') :
    (allSourced documents).Perm (allSourced documents') :=
  h.flatMap_right _

/-- Maps of the same consistent declarations, whichever come first, have the same shapes. -/
theorem HoldsFirst.sameShapes {types types' : TypeMap} {l l' : List Sourced}
    (h : HoldsFirst types l) (h' : HoldsFirst types' l') (hc : Consistent l) (hperm : l.Perm l') :
    types.SameShapes types' := by
  intro n
  have hnames : (n ∈ l.map fun s => s.declaration.name) ↔ n ∈ l'.map fun s => s.declaration.name :=
    (hperm.map _).mem_iff
  rw [h.get?, h'.get?]
  rcases hfirst : firstNamed? l n with _ | s <;> rcases hfirst' : firstNamed? l' n with _ | s'
  · rfl
  · exact absurd (hnames.2 (name_mem_of_firstNamed? hfirst')) (firstNamed?_eq_none_iff.1 hfirst)
  · exact absurd (hnames.1 (name_mem_of_firstNamed? hfirst)) (firstNamed?_eq_none_iff.1 hfirst')
  · refine congrArg some (hc.agree s (mem_of_firstNamed? hfirst) s' ?_ ?_)
    · exact hperm.mem_iff.2 (mem_of_firstNamed? hfirst')
    · rw [name_of_firstNamed? hfirst, name_of_firstNamed? hfirst']

/-- **Documents that merge do so in any order, and give the same shapes.** -/
theorem merge_perm {documents documents' : List Document} {types : TypeMap}
    (hperm : documents.Perm documents') (h : (merge documents).result = .ok types) :
    ∃ types', (merge documents').result = .ok types' ∧ types.SameShapes types' := by
  have hc := merge_succeeds_iff.1 ⟨types, h⟩
  have hsourced := allSourced_perm hperm
  obtain ⟨types', h'⟩ := merge_succeeds_iff.2
    (hc.of_counterparts fun s hs => ⟨s, hsourced.mem_iff.2 hs, rfl, rfl⟩)
  exact ⟨types', h',
    (holdsFirst_of_merge h).sameShapes (holdsFirst_of_merge h') hc hsourced⟩

/-! ## Descriptions -/

/-- The first declaration of a name in a document. -/
def Document.first? (d : Document) (name : String) : Option Declaration :=
  d.types.find? fun t => t.name = name

theorem Document.name_of_first? {d : Document} {n : String} {t : Declaration}
    (h : d.first? n = some t) : t.name = n := by
  simpa using List.find?_some h

/-- A merged map holds what the first document with a name begins with. -/
theorem get?_of_merge {documents : List Document} {types : TypeMap}
    (h : (merge documents).result = .ok types) (n : String) :
    types.get? n = documents.findSome? fun d => d.first? n := by
  rw [(holdsFirst_of_merge h).get?, firstNamed?, allSourced, List.find?_flatMap,
    List.map_findSome?]
  congr 1
  funext d
  rw [Function.comp_apply, Document.sourced, List.find?_map, Option.map_map, Document.first?]
  exact Option.map_id'

section Agreement

variable {documents documents' : List Document} {types types' : TypeMap}

/-- A document can be moved to the front. So if no order matters, what any document begins with is
what the map holds. -/
theorem get?_of_agrees (h : (merge documents).result = .ok types)
    (hagrees : ∀ documents' types', documents.Perm documents' →
      (merge documents').result = .ok types' → types.Agrees types')
    {d : Document} (hd : d ∈ documents) {n : String} {t : Declaration}
    (hfirst : d.first? n = some t) : types.get? n = some t := by
  have hfront : documents.Perm (d :: documents.erase d) := List.perm_cons_erase hd
  obtain ⟨types', h', -⟩ := merge_perm hfront h
  have hheld : types'.get? n = some t := by
    rw [get?_of_merge h', List.findSome?_cons, hfirst]
  rw [hagrees _ _ hfront h' n, hheld]

/-- Documents that begin with one description of every name merge to maps that agree. -/
theorem agrees_of_perm (h : (merge documents).result = .ok types)
    (hdescribed : ∀ d ∈ documents, ∀ d' ∈ documents, ∀ n t t', d.first? n = some t →
      d'.first? n = some t' → t.description = t'.description)
    (hperm : documents.Perm documents') (h' : (merge documents').result = .ok types') :
    types.Agrees types' := by
  intro n
  obtain ⟨types'', h'', hshapes⟩ := merge_perm hperm h
  obtain rfl := Except.ok.inj (h'.symm.trans h'')
  have hshape := hshapes n
  rcases hget : types.get? n with _ | t <;> rcases hget' : types'.get? n with _ | t'
  · rfl
  · rw [hget, hget'] at hshape
    cases hshape
  · rw [hget, hget'] at hshape
    cases hshape
  · rw [hget, hget', Option.map_some, Option.map_some, Option.some.injEq] at hshape
    rw [get?_of_merge h] at hget
    rw [get?_of_merge h'] at hget'
    obtain ⟨d, hd, hfirst⟩ := List.exists_of_findSome?_eq_some hget
    obtain ⟨d', hd', hfirst'⟩ := List.exists_of_findSome?_eq_some hget'
    have hname : t'.name = t.name :=
      (Document.name_of_first? hfirst').trans (Document.name_of_first? hfirst).symm
    have hdescription := hdescribed d hd d' (hperm.mem_iff.2 hd') n t t' hfirst hfirst'
    rw [Declaration.eq_describedAs hname hshape.symm, ← hdescription]
    rfl

/-- **Reordering documents keeps names and shapes, and it keeps descriptions as well exactly if the
documents that declare a name begin with one description of it.** -/
theorem merge_agrees_iff (h : (merge documents).result = .ok types) :
    (∀ documents', documents.Perm documents' → ∃ types', (merge documents').result = .ok types' ∧
      types.keys.Perm types'.keys ∧ types.SameShapes types') ∧
    ((∀ documents' types', documents.Perm documents' → (merge documents').result = .ok types' →
        types.Agrees types') ↔
      ∀ d ∈ documents, ∀ d' ∈ documents, ∀ n t t', d.first? n = some t → d'.first? n = some t' →
        t.description = t'.description) := by
  refine ⟨fun documents' hperm => ?_, fun hagrees => ?_, fun hdescribed => ?_⟩
  · obtain ⟨types', h', hshapes⟩ := merge_perm hperm h
    exact ⟨types', h', hshapes.keys_perm, hshapes⟩
  · intro d hd d' hd' n t t' hfirst hfirst'
    have ht := get?_of_agrees h hagrees hd hfirst
    rw [get?_of_agrees h hagrees hd' hfirst', Option.some.injEq] at ht
    rw [ht]
  · exact fun documents' types' hperm h' => agrees_of_perm h hdescribed hperm h'

end Agreement

/-- Two documents that describe one type in two ways. -/
def userDescribedTwice : List Document :=
  [{ source := "a.graphql", types :=
      [{ name := "User", fields := [⟨"id", .named "ID", false⟩], description := some "First." }] },
    { source := "b.graphql", types :=
      [{ name := "User", fields := [⟨"id", .named "ID", false⟩], description := some "Second." }] }]

/-- Each of these documents begins with a description of its own, so their order matters. -/
theorem userDescribedTwice_order_matters :
    ∃ types, (merge userDescribedTwice).result = .ok types ∧
      ¬ ∀ documents' types', userDescribedTwice.Perm documents' →
        (merge documents').result = .ok types' → types.Agrees types' := by
  refine ⟨_, rfl, fun hagrees => ?_⟩
  have hdescribed := (@merge_agrees_iff userDescribedTwice _ rfl).2.1 hagrees
  have huser := hdescribed _ List.mem_cons_self _ (List.mem_cons_of_mem _ List.mem_cons_self)
    "User" _ _ rfl rfl
  revert huser
  decide

/-- Merging is not commutative if descriptions count. -/
theorem merge_not_commutative :
    ¬ ∀ documents types, (merge documents).result = .ok types →
      ∀ documents', documents.Perm documents' → ∃ types', (merge documents').result = .ok types' ∧
        (∀ n, n ∈ types.keys ↔ n ∈ types'.keys) ∧ types.Agrees types' := by
  intro hcommutes
  obtain ⟨types', h', -, hagrees⟩ :=
    hcommutes userDescribedTwice _ rfl userDescribedTwice.reverse (List.reverse_perm _).symm
  cases h'
  have huser := hagrees "User"
  revert huser
  decide

/-! ## Deriving from declarations described otherwise -/

namespace ClassifiedType

def describedAs (t : ClassifiedType) (description : Option String) : ClassifiedType :=
  { t with declaration := t.declaration.describedAs description }

variable (t : ClassifiedType) (description : Option String)

theorem inputs_describedAs (logical : Bool) :
    (t.describedAs description).inputs logical = t.inputs logical := rfl

theorem queries_describedAs : (t.describedAs description).queries = t.queries := rfl

theorem mutations_describedAs : (t.describedAs description).mutations = t.mutations := rfl

theorem derivedTypes_describedAs : (t.describedAs description).derivedTypes = t.derivedTypes := rfl

end ClassifiedType

/-- A declaration described otherwise is classified alike. -/
theorem classifyType_describedAs {known : List String} {d : Declaration} {t : ClassifiedType}
    (ht : classifyType known d = .ok t) (description : Option String) :
    classifyType known (d.describedAs description) = .ok (t.describedAs description) := by
  obtain ⟨rfl, hfields, hclasses, hid⟩ := classifyType_eq_ok_iff.1 ht
  exact classifyType_eq_ok_iff.2 ⟨rfl, hfields, hclasses, hid⟩

/-! ## Compiling maps with the same shapes -/

section Shapes

variable {types types' : TypeMap}

theorem TypeMap.Uses.of_sameShapes {kind : ScalarKind} (h : types.Uses kind) (hm : Merged types)
    (hm' : Merged types') (hs : types.SameShapes types') : types'.Uses kind := by
  obtain ⟨d, hd, f, hf, htype⟩ := h
  obtain ⟨description, hd'⟩ := hs.exists_describedAs hm hm' hd
  exact ⟨_, hd', f, hf, htype⟩

theorem TypeRef.Supported.of_sameShapes {type : TypeRef} (h : type.Supported types.keys)
    (hs : types.SameShapes types') : type.Supported types'.keys := by
  obtain ⟨n, hn, hbound⟩ := h
  exact ⟨n, hn, hbound.imp_right hs.mem_keys_iff.1⟩

/-- Whether a map can be compiled depends on its shapes. -/
theorem Compilable.of_sameShapes {logical : Bool} (h : Compilable logical types)
    (hm : Merged types) (hm' : Merged types') (hs : types.SameShapes types') :
    Compilable logical types' where
  nonempty hnil := by
    obtain ⟨n, hn⟩ := List.exists_mem_of_ne_nil _ h.nonempty
    rw [hs.mem_keys_iff, hnil] at hn
    cases hn
  identified d hd := by
    obtain ⟨description, hd'⟩ := hs.symm.exists_describedAs hm' hm hd
    exact h.identified (d.describedAs description) hd'
  supported d hd f hf := by
    obtain ⟨description, hd'⟩ := hs.symm.exists_describedAs hm' hm hd
    exact (h.supported _ hd' f hf).of_sameShapes hs
  inputsFree n hn := by
    simp only [← hs.mem_keys_iff] at hn ⊢
    exact h.inputsFree n hn
  enumFree := by
    rw [← hs.mem_keys_iff]
    exact h.enumFree
  familiesFree kind huses n hn := by
    rw [← hs.mem_keys_iff]
    exact h.familiesFree kind (huses.of_sameShapes hm' hm hs.symm) n hn
  queriesApart s hs' t ht := by
    rw [← hs.mem_keys_iff] at hs' ht
    exact h.queriesApart s hs' t ht
  combinatorsFree hlogical d hd := by
    obtain ⟨description, hd'⟩ := hs.symm.exists_describedAs hm' hm hd
    exact h.combinatorsFree hlogical (d.describedAs description) hd'

theorem Merged.compiles_iff (hm : Merged types) {options : SynthesisOptions} :
    (∃ api, (compile options types).result = .ok api) ↔
      Compilable options.logicalFilters types := by
  by_cases hne : types.keys = []
  · rw [compile_empty hne]
    constructor
    · rintro ⟨api, h⟩
      cases h
    · exact fun h => absurd hne h.nonempty
  · exact hm.succeeds_iff hne

theorem compile_of_sameShapes {options : SynthesisOptions} {api : Api}
    (h : (compile options types).result = .ok api) (hm : Merged types) (hm' : Merged types')
    (hs : types.SameShapes types') : ∃ api', (compile options types').result = .ok api' :=
  hm'.compiles_iff.2 ((hm.compiles_iff.1 ⟨api, h⟩).of_sameShapes hm hm' hs)

end Shapes

/-- The APIs have the same derived content by name, and objects of the same shapes. -/
structure Api.Agrees (a b : Api) : Prop where
  inputs : a.inputs.Agrees b.inputs
  enums : a.enums.Agrees b.enums
  query : a.query.Agrees b.query
  mutation : a.mutation.Agrees b.mutation
  derived : a.derived.Agrees b.derived
  objects : a.objects.SameShapes b.objects

namespace Compiled

variable {logical : Bool} {types types' : TypeMap} {ts ts' : List ClassifiedType} {api api' : Api}

theorem exists_describedAs (h : Compiled logical types ts api)
    (h' : Compiled logical types' ts' api') (hs : types.SameShapes types') {t : ClassifiedType}
    (ht : t ∈ ts) : ∃ description, t.describedAs description ∈ ts' := by
  obtain ⟨hsound, hd⟩ := h.sound ht
  obtain ⟨description, hd'⟩ := hs.exists_describedAs h.merged h'.merged hd
  obtain ⟨t', ht', hdeclaration⟩ := exists_type_of_usable h'.usable hd'
  have hclassified := (h'.sound ht').1.classified
  have hknown := classifyType_of_subset (fun _ => hs.mem_keys_iff.1) hsound.classified
  rw [hdeclaration, classifyType_describedAs hknown description] at hclassified
  exact ⟨description, Except.ok.inj hclassified ▸ ht'⟩

/-- What every type gives whatever its description, types of the same shapes give together. -/
theorem mem_flatMap_of_sameShapes {α : Type} (h : Compiled logical types ts api)
    (h' : Compiled logical types' ts' api') (hs : types.SameShapes types')
    {f : ClassifiedType → List α} (hf : ∀ t description, f (t.describedAs description) = f t)
    {a : α} : a ∈ ts.flatMap f ↔ a ∈ ts'.flatMap f := by
  simp only [List.mem_flatMap]
  constructor
  · rintro ⟨t, ht, ha⟩
    obtain ⟨description, ht'⟩ := h.exists_describedAs h' hs ht
    exact ⟨_, ht', by rwa [hf]⟩
  · rintro ⟨t, ht, ha⟩
    obtain ⟨description, ht'⟩ := h'.exists_describedAs h hs.symm ht
    exact ⟨_, ht', by rwa [hf]⟩

/-- **Maps with the same shapes compile to APIs that agree.** -/
theorem agrees (h : Compiled logical types ts api) (h' : Compiled logical types' ts' api')
    (hs : types.SameShapes types') : api.Agrees api' where
  inputs := by
    -- An input belongs to a kind in use or to a type, and neither depends on descriptions.
    refine OrderedMap.agrees_of_mem_iff h.inputs h'.inputs fun i => ?_
    have htypes : (i ∈ ts.flatMap fun t => t.inputs logical) ↔ i ∈ ts'.flatMap fun t =>
        t.inputs logical :=
      h.mem_flatMap_of_sameShapes h' hs fun t description =>
        t.inputs_describedAs description logical
    rw [← h.values_inputs, ← h'.values_inputs, h.mem_inputs, h'.mem_inputs, ← List.mem_flatMap,
      ← List.mem_flatMap, htypes]
    refine or_congr_left (exists_congr fun kind => and_congr_left fun _ => ?_)
    exact ⟨fun huses => huses.of_sameShapes h.merged h'.merged hs,
      fun huses => huses.of_sameShapes h'.merged h.merged hs.symm⟩
  enums n := by rw [OrderedMap.get?, OrderedMap.get?, h.enums, h'.enums]
  query := OrderedMap.agrees_of_mem_iff h.query h'.query fun _ =>
    h.mem_flatMap_of_sameShapes h' hs ClassifiedType.queries_describedAs
  mutation := OrderedMap.agrees_of_mem_iff h.mutation h'.mutation fun _ =>
    h.mem_flatMap_of_sameShapes h' hs ClassifiedType.mutations_describedAs
  derived := by
    refine OrderedMap.agrees_of_mem_iff h.derived h'.derived fun d => ?_
    rw [List.map_eq_flatMap, List.map_eq_flatMap]
    refine h.mem_flatMap_of_sameShapes h' hs fun t description => ?_
    rw [t.derivedTypes_describedAs]
  objects := by
    rw [h.objects, h'.objects]
    exact hs

end Compiled

/-! ## Synthesis from documents in another order -/

section Synthesize

variable {options : SynthesisOptions} {documents documents' : List Document} {api api' : Api}

theorem synthesize_eq_ok_iff :
    (synthesize options documents).result = .ok api ↔
      ∃ types, (merge documents).result = .ok types ∧
        (compile options types).result = .ok api := by
  rw [synthesize, Logged.bind]
  rcases hmerge : (merge documents).result with e | types
  · simp
  · simp

theorem exists_synthesize_of_perm (hperm : documents.Perm documents')
    (h : (synthesize options documents).result = .ok api) :
    ∃ api', (synthesize options documents').result = .ok api' ∧ api.Agrees api' := by
  obtain ⟨types, hmerge, hcompile⟩ := synthesize_eq_ok_iff.1 h
  obtain ⟨types', hmerge', hs⟩ := merge_perm hperm hmerge
  have hm := merged_of_merge hmerge
  have hm' := merged_of_merge hmerge'
  obtain ⟨api', hcompile'⟩ := compile_of_sameShapes hcompile hm hm' hs
  obtain ⟨ts, hts⟩ := exists_compiled hm hcompile
  obtain ⟨ts', hts'⟩ := exists_compiled hm' hcompile'
  exact ⟨api', synthesize_eq_ok_iff.2 ⟨types', hmerge', hcompile'⟩, hts.agrees hts' hs⟩

end Synthesize

/-- **What is derived from documents does not depend on their order.** Either no order gives an API
or every order does, and then the APIs agree. -/
theorem synthesize_perm (options : SynthesisOptions) {documents documents' : List Document}
    (hperm : documents.Perm documents') :
    ((∃ api, (synthesize options documents).result = .ok api) ↔
      ∃ api', (synthesize options documents').result = .ok api') ∧
    ∀ api api', (synthesize options documents).result = .ok api →
      (synthesize options documents').result = .ok api' → api.Agrees api' := by
  refine ⟨⟨fun ⟨api, h⟩ => ?_, fun ⟨api', h'⟩ => ?_⟩, fun api api' h h' => ?_⟩
  · obtain ⟨api', h', -⟩ := exists_synthesize_of_perm hperm h
    exact ⟨api', h'⟩
  · obtain ⟨api, h, -⟩ := exists_synthesize_of_perm hperm.symm h'
    exact ⟨api, h⟩
  · obtain ⟨api'', h'', hagrees⟩ := exists_synthesize_of_perm hperm h
    obtain rfl := Except.ok.inj (h'.symm.trans h'')
    exact hagrees

/-- Two descriptions of a type, behind a type that refers to it and has a kind of its own. -/
def postAndUserDescribedTwice : List Document :=
  { source := "c.graphql", types :=
    [{ name := "Post", fields := [⟨"id", .named "ID", false⟩, ⟨"title", .named "String", true⟩,
      ⟨"author", .named "User", false⟩] }] } :: userDescribedTwice

/-- Backwards other types, kinds and descriptions come first, and the APIs agree. -/
theorem postAndUserDescribedTwice_agrees_backwards :
    ∃ api api', (synthesize {} postAndUserDescribedTwice).result = .ok api ∧
      (synthesize {} postAndUserDescribedTwice.reverse).result = .ok api' ∧ api.Agrees api' := by
  have hperm : postAndUserDescribedTwice.Perm postAndUserDescribedTwice.reverse :=
    (List.reverse_perm _).symm
  have hok : (synthesize {} postAndUserDescribedTwice).result.isOk = true := by decide
  rcases h : (synthesize {} postAndUserDescribedTwice).result with e | api
  · rw [h] at hok
    cases hok
  · obtain ⟨hiff, hagrees⟩ := synthesize_perm {} hperm
    obtain ⟨api', h'⟩ := hiff.1 ⟨api, h⟩
    exact ⟨api, api', rfl, h', hagrees api api' h h'⟩

end CrudSchema
