import CrudSchema.Proofs.Derivation

/-!
# Drafts only grow

**Steps** (`Draft.Step`). What can be done to a draft, one thing after the other. A step that fails
leaves behind what it did before it failed, and the next one goes on from there.

**Coherent drafts** (`Draft.Coherent`). No two of declared types, inputs and enums share a name;
everything stands under its own name; a kind counts as built only with its whole family, and a type
as derived only with its four inputs.

**What is left behind** (`Draft.Gains`, `Addition.Complete`). However a step ends, it has added
something for which there was room, and in which no kind lacks its family and no type its inputs.
This is shown along the steps of a derivation (`Derive.Keeps`): between two of them the addition so
far is complete, so that any of them may fail. A complete addition keeps a draft coherent and
changes nothing of what was there (`Gains.coherent_of_complete`, `Gains.extends_of_complete`).

Main result: `coherent_run`.
-/

namespace CrudSchema

open Naming

/-! ## Families in a map -/

/-- The inputs of a kind are registered, each as the shape of the kind prescribes. -/
structure HoldsFamily (inputs : NameMap InputObject) (kind : ScalarKind) : Prop where
  ranges : ∀ v ∈ (FilterShape.of kind).variants, 1 < v.operators.length →
    ∃ i, inputs.get? (scalarRange kind v.operators) = some i ∧ i.description = none ∧
      i.fields.entries = v.operators.map fun operator => (operator, ⟨.scalar kind, false, none⟩)
  equality : ∃ i, inputs.get? (scalarEquality kind) = some i ∧
    i.description = some ("Exactly one of " ++
      ", ".intercalate (FilterShape.of kind).variantNames ++ " may be set.") ∧
    i.fields.entries = (FilterShape.of kind).variants.map fun v => (v.name,
      ⟨if 1 < v.operators.length then .named (scalarRange kind v.operators) else .scalar kind,
        true, none⟩)
  filter : ∃ i, inputs.get? (scalarFilter kind) = some i ∧ i.description = none ∧
    i.fields.entries = ("equality", ⟨.named (scalarEquality kind), true, none⟩) ::
      (FilterShape.of kind).substring.map fun predicate => (predicate, ⟨.scalar kind, true, none⟩)

namespace FilterShape

theorem rangeInput_of (kind : ScalarKind) : ∀ v ∈ (of kind).variants, 1 < v.operators.length →
    ((of kind).rangeInput v).name = scalarRange kind v.operators ∧
    ((of kind).rangeInput v).description = none ∧
    ((of kind).rangeInput v).fields.entries =
      v.operators.map fun operator => (operator, ⟨.scalar kind, false, none⟩) := by
  cases kind <;> decide

theorem equalityInput_of (kind : ScalarKind) :
    (of kind).equalityInput.name = scalarEquality kind ∧
    (of kind).equalityInput.description = some ("Exactly one of " ++
      ", ".intercalate (of kind).variantNames ++ " may be set.") ∧
    (of kind).equalityInput.fields.entries = (of kind).variants.map fun v => (v.name,
      ⟨if 1 < v.operators.length then .named (scalarRange kind v.operators) else .scalar kind,
        true, none⟩) := by
  cases kind <;> decide

theorem filterInput_of (kind : ScalarKind) :
    (of kind).filterInput.name = scalarFilter kind ∧ (of kind).filterInput.description = none ∧
    (of kind).filterInput.fields.entries =
      ("equality", ⟨.named (scalarEquality kind), true, none⟩) ::
        (of kind).substring.map fun predicate => (predicate, ⟨.scalar kind, true, none⟩) := by
  cases kind <;> decide

end FilterShape

/-- A map with the inputs of a family holds the family. -/
theorem HoldsFamily.of_family {inputs : NameMap InputObject} {kind : ScalarKind}
    (h : ∀ i ∈ (FilterShape.of kind).family, inputs.get? i.name = some i) :
    HoldsFamily inputs kind where
  ranges v hv hrange := by
    obtain ⟨hname, hcontent⟩ := FilterShape.rangeInput_of kind v hv hrange
    have hmem : (FilterShape.of kind).rangeInput v ∈ (FilterShape.of kind).family := by
      refine List.mem_append_left _ (List.mem_map_of_mem (List.mem_filter.2 ⟨hv, ?_⟩))
      simpa [Variant.isRange] using hrange
    exact ⟨_, hname ▸ h _ hmem, hcontent⟩
  equality := by
    obtain ⟨hname, hcontent⟩ := FilterShape.equalityInput_of kind
    exact ⟨_, hname ▸ h _ (by simp [FilterShape.family]), hcontent⟩
  filter := by
    obtain ⟨hname, hcontent⟩ := FilterShape.filterInput_of kind
    exact ⟨_, hname ▸ h _ (by simp [FilterShape.family]), hcontent⟩

theorem HoldsFamily.mono {inputs inputs' : NameMap InputObject} {kind : ScalarKind}
    (h : HoldsFamily inputs kind) (hwithin : inputs.Within inputs') :
    HoldsFamily inputs' kind where
  ranges v hv hrange := (h.ranges v hv hrange).imp fun _ hi => hi.imp_left (hwithin _ _)
  equality := h.equality.imp fun _ hi => hi.imp_left (hwithin _ _)
  filter := h.filter.imp fun _ hi => hi.imp_left (hwithin _ _)

/-! ## Coherent drafts -/

/-- The names of the four inputs. -/
def DerivedTypes.inputs (t : DerivedTypes) : List String :=
  [t.filterInput, t.sortInput, t.createInput, t.updateInput]

namespace Draft

structure Coherent (d : Draft) : Prop where
  declaredInputs : d.declared.Disjoint d.inputs.keys
  declaredEnums : d.declared.Disjoint d.enums.keys
  inputsEnums : d.inputs.keys.Disjoint d.enums.keys
  inputsNamed : ∀ e ∈ d.inputs.entries, e.1 = e.2.name
  enumsNamed : ∀ e ∈ d.enums.entries, e.1 = e.2.name
  queryNamed : ∀ e ∈ d.query.entries, e.1 = e.2.name
  mutationNamed : ∀ e ∈ d.mutation.entries, e.1 = e.2.name
  families : ∀ kind ∈ d.kinds, HoldsFamily d.inputs kind
  derivedNamed : ∀ e ∈ d.derived.entries, e.1 = e.2.typeName
  derivedFilter : ∀ e ∈ d.derived.entries, e.2.filterInput = filterInput e.1
  derivedInputs : ∀ e ∈ d.derived.entries, ∀ n ∈ e.2.inputs, n ∈ d.inputs.keys

theorem coherent_start (declared : List String) : (start declared).Coherent := by
  constructor <;> simp [start, OrderedMap.empty, OrderedMap.keys]

/-- Whatever is in a draft is in the other one at the same place, and the same names are declared.
-/
structure Extends (d d' : Draft) : Prop where
  declared : d'.declared = d.declared
  inputs : d.inputs.entries <+: d'.inputs.entries
  enums : d.enums.entries <+: d'.enums.entries
  kinds : d.kinds <+: d'.kinds
  query : d.query.entries <+: d'.query.entries
  mutation : d.mutation.entries <+: d'.mutation.entries
  derived : d.derived.entries <+: d'.derived.entries

namespace Extends

theorem refl (d : Draft) : Extends d d := by constructor <;> simp

theorem trans {d d' d'' : Draft} (h : Extends d d') (h' : Extends d' d'') : Extends d d'' where
  declared := h'.declared.trans h.declared
  inputs := h.inputs.trans h'.inputs
  enums := h.enums.trans h'.enums
  kinds := h.kinds.trans h'.kinds
  query := h.query.trans h'.query
  mutation := h.mutation.trans h'.mutation
  derived := h.derived.trans h'.derived

end Extends

end Draft

/-! ## Complete additions -/

namespace Addition

/-- Every kind has its family, and every type its inputs. -/
structure Complete (a : Addition) : Prop where
  families : ∀ kind ∈ a.kinds, ∀ i ∈ (FilterShape.of kind).family, i ∈ a.inputs
  derivedFilter : ∀ t ∈ a.derived, t.filterInput = filterInput t.typeName
  derivedInputs : ∀ t ∈ a.derived, ∀ n ∈ t.inputs, n ∈ a.inputs.map InputObject.name

variable {a b : Addition}

theorem complete_of_nil (hkinds : a.kinds = []) (hderived : a.derived = []) : Complete a := by
  constructor <;> simp [hkinds, hderived]

theorem Complete.append (ha : Complete a) (hb : Complete b) : Complete (a ++ b) where
  families kind hkind i hi := by
    rw [inputs_append, List.mem_append]
    rcases List.mem_append.1 hkind with hkind | hkind
    · exact .inl (ha.families kind hkind i hi)
    · exact .inr (hb.families kind hkind i hi)
  derivedFilter t ht := by
    rcases List.mem_append.1 ht with ht | ht
    · exact ha.derivedFilter t ht
    · exact hb.derivedFilter t ht
  derivedInputs t ht n hn := by
    rw [inputs_append, List.map_append, List.mem_append]
    rcases List.mem_append.1 ht with ht | ht
    · exact .inl (ha.derivedInputs t ht n hn)
    · exact .inr (hb.derivedInputs t ht n hn)

end Addition

namespace Draft

/-- The second draft is the first one with an addition for which there was room. -/
structure Gains (d : Draft) (a : Addition) (d' : Draft) : Prop where
  room : d.Fits a
  grows : d.Grows a d'

namespace Gains

variable {d d' d'' : Draft} {a b : Addition}

theorem refl (d : Draft) : Gains d {} d := ⟨d.fits_empty, .refl d⟩

theorem trans (h : Gains d a d') (h' : Gains d' b d'') : Gains d (a ++ b) d'' :=
  ⟨(fits_append h.grows).2 ⟨h.room, h'.room⟩, h.grows.trans h'.grows⟩

theorem inputs_keys (h : Gains d a d') :
    d'.inputs.keys = d.inputs.keys ++ a.inputs.map InputObject.name := by
  simp [OrderedMap.keys, h.grows.inputs, Function.comp_def]

theorem enums_keys (h : Gains d a d') :
    d'.enums.keys = d.enums.keys ++ a.enums.map EnumType.name := by
  simp [OrderedMap.keys, h.grows.enums, Function.comp_def]

theorem get?_input (h : Gains d a d') {i : InputObject} (hi : i ∈ a.inputs) :
    d'.inputs.get? i.name = some i := by
  rw [OrderedMap.get?_eq_some_iff, h.grows.inputs]
  exact List.mem_append_right _ (List.mem_map_of_mem hi)

theorem inputs_within (h : Gains d a d') : d.inputs.Within d'.inputs := by
  apply OrderedMap.within_of_subset
  rw [h.grows.inputs]
  exact List.subset_append_left _ _

/-- A derived type is not derived again, for its filter input is taken. -/
theorem derived_fresh (h : Gains d a d') (hd : d.Coherent) (ha : a.Complete) :
    ∀ t ∈ a.derived, t.typeName ∉ d.derived.keys := by
  intro t ht hmem
  obtain ⟨e, he, hkey⟩ := List.mem_map.1 hmem
  have htaken : filterInput t.typeName ∈ d.inputs.keys := by
    rw [← hkey, ← hd.derivedFilter e he]
    exact hd.derivedInputs e he _ (by simp [DerivedTypes.inputs])
  have hadded : filterInput t.typeName ∈ a.inputs.map InputObject.name := by
    rw [← ha.derivedFilter t ht]
    exact ha.derivedInputs t ht _ (by simp [DerivedTypes.inputs])
  refine h.room.free _ (List.mem_append_left _ hadded) ?_
  simp [taken, htaken]

theorem mem_derived (h : Gains d a d') {e : String × DerivedTypes}
    (he : e ∈ d'.derived.entries) :
    e ∈ d.derived.entries ∨ ∃ t ∈ a.derived, (t.typeName, t) = e := by
  rw [h.grows.derived] at he
  exact (OrderedMap.mem_of_mem_entries_setAll he).imp_right List.mem_map.1

/-- **A complete addition changes nothing of what was there.** -/
theorem extends_of_complete (h : Gains d a d') (hd : d.Coherent) (ha : a.Complete) :
    d.Extends d' where
  declared := h.grows.declared
  inputs := h.grows.inputs ▸ List.prefix_append _ _
  enums := h.grows.enums ▸ List.prefix_append _ _
  kinds := h.grows.kinds ▸ List.prefix_append _ _
  query := h.grows.query ▸ List.prefix_append _ _
  mutation := h.grows.mutation ▸ List.prefix_append _ _
  derived := by
    rw [h.grows.derived]
    refine OrderedMap.entries_prefix_setAll (List.prefix_refl _) fun e he => ?_
    obtain ⟨t, ht, rfl⟩ := List.mem_map.1 he
    exact h.derived_fresh hd ha t ht

/-- **A complete addition keeps a draft coherent.** -/
theorem coherent_of_complete (h : Gains d a d') (hd : d.Coherent) (ha : a.Complete) :
    d'.Coherent := by
  have hfree : ∀ n ∈ a.typeNames, n ∉ d.declared ∧ n ∉ d.inputs.keys ∧ n ∉ d.enums.keys := by
    intro n hn
    simpa [taken, or_assoc] using h.room.free n hn
  have hinput : ∀ n ∈ a.inputs.map InputObject.name, n ∈ a.typeNames := fun n =>
    List.mem_append_left _
  have henum : ∀ n ∈ a.enums.map EnumType.name, n ∈ a.typeNames := fun n =>
    List.mem_append_right _
  constructor
  case declaredInputs =>
    rw [h.grows.declared, h.inputs_keys, List.disjoint_append_right]
    exact ⟨hd.declaredInputs, fun n hn hm => (hfree n (hinput n hm)).1 hn⟩
  case declaredEnums =>
    rw [h.grows.declared, h.enums_keys, List.disjoint_append_right]
    exact ⟨hd.declaredEnums, fun n hn hm => (hfree n (henum n hm)).1 hn⟩
  case inputsEnums =>
    rw [h.inputs_keys, h.enums_keys, List.disjoint_append_left, List.disjoint_append_right,
      List.disjoint_append_right]
    refine ⟨⟨hd.inputsEnums, fun n hn hm => (hfree n (henum n hm)).2.1 hn⟩,
      fun n hm hn => (hfree n (hinput n hm)).2.2 hn, ?_⟩
    exact List.disjoint_of_nodup_append h.room.distinct
  case inputsNamed => exact OrderedMap.named_of_append h.grows.inputs hd.inputsNamed
  case enumsNamed => exact OrderedMap.named_of_append h.grows.enums hd.enumsNamed
  case queryNamed => exact OrderedMap.named_of_append h.grows.query hd.queryNamed
  case mutationNamed => exact OrderedMap.named_of_append h.grows.mutation hd.mutationNamed
  case families =>
    intro kind hkind
    rw [h.grows.kinds, List.mem_append] at hkind
    rcases hkind with hkind | hkind
    · exact (hd.families kind hkind).mono h.inputs_within
    · exact .of_family fun i hi => h.get?_input (ha.families kind hkind i hi)
  case derivedNamed =>
    intro e he
    rcases h.mem_derived he with he | ⟨t, ht, rfl⟩
    · exact hd.derivedNamed e he
    · rfl
  case derivedFilter =>
    intro e he
    rcases h.mem_derived he with he | ⟨t, ht, rfl⟩
    · exact hd.derivedFilter e he
    · exact ha.derivedFilter t ht
  case derivedInputs =>
    intro e he n hn
    rw [h.inputs_keys, List.mem_append]
    rcases h.mem_derived he with he | ⟨t, ht, rfl⟩
    · exact .inl (hd.derivedInputs e he n hn)
    · exact .inr (ha.derivedInputs t ht n hn)

end Gains

end Draft

namespace Derive

/-! ## What a step leaves behind -/

section Keeps

variable {α β : Type} {step : Derive α} {P : Addition → Prop} {Q R : α → Addition → Prop}

/-- The step begins where an addition with `P` has been made, and adds more. If it succeeds with a
value, `Q` holds of the whole addition; if it fails, the whole is complete. -/
def Keeps (P : Addition → Prop) (step : Derive α) (Q : α → Addition → Prop) : Prop :=
  ∀ (d₀ d : Draft) (a : Addition), d₀.Gains a d → P a →
    ∃ b, d₀.Gains (a ++ b) (d.take step).2 ∧
      match (d.take step).1 with
      | .ok value => Q value (a ++ b)
      | .error _ => (a ++ b).Complete

namespace Keeps

theorem pure {value : α} (h : ∀ a, P a → Q value a) : Keeps P (Pure.pure value) Q := by
  intro d₀ d a hgains ha
  refine ⟨{}, ?_, ?_⟩ <;> rw [Addition.append_empty]
  · exact hgains
  · exact h a ha

theorem weaken (h : Keeps P step Q) (hQ : ∀ value a, Q value a → R value a) : Keeps P step R := by
  intro d₀ d a hgains ha
  obtain ⟨b, hb, hend⟩ := h d₀ d a hgains ha
  refine ⟨b, hb, ?_⟩
  rcases hrun : (d.take step).1 with e | value <;> rw [hrun] at hend
  · exact hend
  · exact hQ value _ hend

theorem throw {e : SynthesisError} (h : ∀ a, P a → a.Complete) :
    Keeps P (MonadExcept.throw e : Derive α) Q := by
  intro d₀ d a hgains ha
  refine ⟨{}, ?_, ?_⟩ <;> rw [Addition.append_empty]
  · exact hgains
  · exact h a ha

theorem get_bind {f : Draft → Derive α} (h : ∀ d, Keeps P (f d) Q) : Keeps P (get >>= f) Q := by
  intro d₀ d a hgains ha
  rw [Draft.take_get_bind]
  exact h d d₀ d a hgains ha

theorem bind {x : Derive α} {f : α → Derive β} {S : β → Addition → Prop} (hx : Keeps P x Q)
    (hf : ∀ value, Keeps (Q value) (f value) S) : Keeps P (x >>= f) S := by
  intro d₀ d a hgains ha
  obtain ⟨b, hb, hend⟩ := hx d₀ d a hgains ha
  rw [Draft.take_bind]
  rcases hrun : d.take x with ⟨e | value, d'⟩ <;> rw [hrun] at hb hend
  · exact ⟨b, hb, hend⟩
  · obtain ⟨c, hc, hend⟩ := hf value d₀ d' (a ++ b) hb hend
    rw [Addition.append_assoc] at hc hend
    exact ⟨b ++ c, hc, hend⟩

/-- A step that adds something, or else fails and adds nothing. -/
theorem of_adds {b : Addition} {value : α} (hadds : ∀ d, Adds step d b value)
    (hfail : ∀ (d : Draft) e, (d.take step).1 = .error e → (d.take step).2 = d)
    (hP : ∀ a, P a → a.Complete) (hQ : ∀ a, P a → Q value (a ++ b)) : Keeps P step Q := by
  intro d₀ d a hgains ha
  cases hadds d with
  | fits room run grows =>
    rw [run]
    exact ⟨b, hgains.trans ⟨room, grows⟩, hQ a ha⟩
  | collides room run collision =>
    have hsame := hfail d _ (by rw [run])
    rw [run] at hsame ⊢
    refine ⟨{}, ?_, ?_⟩ <;> rw [Addition.append_empty]
    · exact hsame ▸ hgains
    · exact hP a ha

end Keeps

/-- A check that fails leaves the draft as it is, whatever it stands in front of. -/
theorem take_of_error {check : Derive α} {f : α → Derive β} {d : Draft} {e : SynthesisError}
    (hcheck : (d.take check).2 = d) (hf : ∀ value d', ∃ w, (Draft.take d' (f value)).1 = .ok w)
    (h : (d.take (check >>= f)).1 = .error e) : (d.take (check >>= f)).2 = d := by
  rw [Draft.take_bind] at h ⊢
  rcases hrun : d.take check with ⟨e' | value, d'⟩ <;> rw [hrun] at h hcheck
  · exact hcheck
  · obtain ⟨w, hw⟩ := hf value d'
    rw [hw] at h
    cases h

end Keeps

/-! ## The steps of a derivation -/

/-- The addition is complete, and these inputs are among what was added. -/
def Holding (is : List InputObject) (a : Addition) : Prop :=
  a.Complete ∧ ∀ i ∈ is, i ∈ a.inputs

theorem Holding.append {is : List InputObject} {a b : Addition} (h : Holding is a)
    (hb : b.Complete) : Holding (is ++ b.inputs) (a ++ b) := by
  refine ⟨h.1.append hb, fun i hi => ?_⟩
  rw [Addition.inputs_append, List.mem_append]
  exact (List.mem_append.1 hi).imp_left (h.2 i)

theorem Holding.append_left {is : List InputObject} {a b : Addition} (h : Holding is a)
    (hb : b.Complete) : Holding is (a ++ b) :=
  ⟨h.1.append hb, fun i hi => (h.append hb).2 i (List.mem_append_left _ hi)⟩

variable {is : List InputObject}

theorem keeps_tell (r : Record) : Keeps (Holding is) (tell r) fun _ => Holding is :=
  .of_adds (fun _ => .tell r) (fun _ _ h => nomatch h) (fun _ h => h.1) fun a h => by
    rwa [Addition.append_empty]

theorem keeps_registerInput (i : InputObject) :
    Keeps (Holding is) (registerInput i) fun _ => Holding (is ++ [i]) := by
  refine .of_adds (fun _ => adds_registerInput i) (fun d e h => ?_) (fun _ h => h.1) fun a h =>
    h.append (Addition.complete_of_nil rfl rfl)
  refine take_of_error ?_ (fun _ _ => ⟨_, rfl⟩) h
  rw [take_checkFree]
  split <;> rfl

theorem keeps_registerEnum (e : EnumType) :
    Keeps (Holding is) (registerEnum e) fun _ => Holding is := by
  refine .of_adds (fun _ => adds_registerEnum e) (fun d e h => ?_) (fun _ h => h.1) fun a h =>
    h.append_left (Addition.complete_of_nil rfl rfl)
  refine take_of_error ?_ (fun _ _ => ⟨_, rfl⟩) h
  rw [take_checkFree]
  split <;> rfl

theorem take_checkOperation (given : NameMap Operation) (o : Operation) (d : Draft) :
    (d.take (checkOperation given o)).2 = d := by
  rw [checkOperation]
  split <;> rfl

theorem keeps_addQuery (o : Operation) :
    Keeps (Holding is) (addQuery o) fun _ => Holding is := by
  refine .of_adds (fun _ => adds_addQuery o) (fun d e h => ?_) (fun _ h => h.1) fun a h =>
    h.append_left (Addition.complete_of_nil rfl rfl)
  rw [addQuery, Draft.take_get_bind] at h ⊢
  exact take_of_error (take_checkOperation _ _ _) (fun _ _ => ⟨_, rfl⟩) h

theorem keeps_addMutation (o : Operation) :
    Keeps (Holding is) (addMutation o) fun _ => Holding is := by
  refine .of_adds (fun _ => adds_addMutation o) (fun d e h => ?_) (fun _ h => h.1) fun a h =>
    h.append_left (Addition.complete_of_nil rfl rfl)
  rw [addMutation, Draft.take_get_bind] at h ⊢
  exact take_of_error (take_checkOperation _ _ _) (fun _ _ => ⟨_, rfl⟩) h

theorem keeps_registerInputs (more : List InputObject) :
    Keeps (Holding is) (registerInputs more) fun _ => Holding (is ++ more) := by
  induction more generalizing is with
  | nil =>
    rw [List.append_nil]
    exact .pure fun _ => id
  | cons i rest ih =>
    rw [List.append_cons]
    exact (keeps_registerInput i).bind fun _ => ih

/-- A kind is recorded when its family is there. -/
theorem Holding.append_kind {kind : ScalarKind} {a : Addition}
    (h : Holding (is ++ (FilterShape.of kind).family) a) :
    Holding is (a ++ { kinds := [kind] }) := by
  refine ⟨⟨fun k hk i hi => ?_, ?_, ?_⟩, fun i hi => ?_⟩
  · rw [Addition.inputs_append, List.append_nil]
    rcases List.mem_append.1 hk with hk | hk
    · exact h.1.families k hk i hi
    · obtain rfl := List.mem_singleton.1 hk
      exact h.2 i (List.mem_append_right _ hi)
  · simpa using h.1.derivedFilter
  · simpa using h.1.derivedInputs
  · rw [Addition.inputs_append, List.append_nil]
    exact h.2 i (List.mem_append_left _ hi)

theorem keeps_scalarFilter (kind : ScalarKind) :
    Keeps (Holding is) (scalarFilter kind) fun _ => Holding is := by
  refine .get_bind fun d => ?_
  split
  · exact .pure fun _ => id
  · refine (keeps_registerInputs _).bind fun _ => (keeps_tell _).bind fun _ => ?_
    refine Keeps.bind (Q := fun _ => Holding is) ?_ fun _ => .pure fun _ => id
    exact .of_adds (adds_kind kind) (fun _ _ h => nomatch h) (fun _ h => h.1)
      fun _ => Holding.append_kind

theorem keeps_scalarFilters (kinds : List ScalarKind) :
    Keeps (Holding is) (scalarFilters kinds) fun _ => Holding is := by
  induction kinds with
  | nil => exact .pure fun _ => id
  | cons kind rest ih => exact (keeps_scalarFilter kind).bind fun _ => ih

theorem keeps_sortDirectionEnum : Keeps (Holding is) sortDirectionEnum fun _ => Holding is := by
  refine .get_bind fun d => ?_
  split
  · exact .pure fun _ => id
  · exact (keeps_registerEnum _).bind fun _ => .pure fun _ => id

theorem keeps_filterInput (t : ClassifiedType) (logical : Bool) :
    Keeps (Holding is) (filterInput t logical)
      fun _ => Holding (is ++ [t.filterInput logical]) := by
  have hregister : Keeps (Holding is)
      (do registerInput (t.filterInput logical); pure (t.filterInput logical))
      fun _ => Holding (is ++ [t.filterInput logical]) :=
    (keeps_registerInput _).bind fun _ => .pure fun _ => id
  refine (keeps_scalarFilters t.filterKinds).bind fun _ => ?_
  cases logical with
  | false => exact hregister
  | true =>
    rcases hclash : t.clash? with _ | combinator
    · exact hregister
    · exact .throw fun _ h => h.1

theorem keeps_sortInput (t : ClassifiedType) :
    Keeps (Holding is) (sortInput t) fun _ => Holding (is ++ [t.sortInput]) :=
  keeps_sortDirectionEnum.bind fun _ => (keeps_registerInput _).bind fun _ => .pure fun _ => id

/-- A type is recorded when its inputs are there. -/
theorem Holding.append_derived {t : ClassifiedType} (logical : Bool) {a : Addition}
    (h : Holding (t.inputs logical) a) : Holding [] (a ++ { derived := [t.derivedTypes] }) := by
  refine ⟨⟨?_, fun x hx => ?_, fun x hx n hn => ?_⟩, by simp⟩
  · simpa using h.1.families
  · rcases List.mem_append.1 hx with hx | hx
    · exact h.1.derivedFilter x hx
    · obtain rfl := List.mem_singleton.1 hx
      rfl
  · rw [Addition.inputs_append, List.append_nil]
    rcases List.mem_append.1 hx with hx | hx
    · exact h.1.derivedInputs x hx n hn
    · obtain rfl := List.mem_singleton.1 hx
      have hnames : n ∈ (t.inputs logical).map InputObject.name := t.map_name_inputs logical ▸ hn
      obtain ⟨i, hi, rfl⟩ := List.mem_map.1 hnames
      exact List.mem_map_of_mem (h.2 i hi)

theorem keeps_addOperations (t : ClassifiedType) :
    Keeps (Holding is) (addOperations t) fun _ => Holding is :=
  (keeps_addQuery _).bind fun _ => (keeps_addQuery _).bind fun _ =>
    (keeps_addMutation _).bind fun _ => (keeps_addMutation _).bind fun _ => keeps_addMutation _

theorem keeps_classifyType (known : List String) (decl : Declaration) :
    Keeps (Holding is) (classifyType known decl) fun _ => Holding is := by
  rw [classifyType]
  split
  · exact .throw fun _ h => h.1
  · exact (keeps_tell _).bind fun _ => .pure fun _ => id

theorem keeps_foldType (known : List String) (logical : Bool) (decl : Declaration) :
    Keeps (Holding []) (foldType known logical decl) fun _ => Holding [] := by
  refine (keeps_classifyType known decl).bind fun t => ?_
  refine (keeps_filterInput t logical).bind fun _ => ?_
  refine (keeps_sortInput t).bind fun _ => (keeps_registerInput t.createInput).bind fun _ => ?_
  refine (keeps_registerInput t.updateInput).bind fun _ => ?_
  refine Keeps.bind (Q := fun _ => Holding []) ?_ fun _ => ?_
  · exact .of_adds (fun _ => adds_derived) (fun _ _ h => nomatch h) (fun _ h => h.1)
      fun _ => Holding.append_derived logical
  · exact (keeps_addOperations t).bind fun _ => keeps_tell _

end Derive

/-! ## Runs -/

namespace Draft

/-- One thing to do to a draft. -/
inductive Step where
  | registerInput (i : InputObject)
  | registerEnum (e : EnumType)
  | sortDirectionEnum
  | scalarFilter (kind : ScalarKind)
  | filterInput (t : ClassifiedType) (logical : Bool)
  | sortInput (t : ClassifiedType)
  | foldType (known : List String) (logical : Bool) (decl : Declaration)
  | addQuery (o : Operation)
  | addMutation (o : Operation)

def Step.derive : Step → Derive Unit
  | .registerInput i => Derive.registerInput i
  | .registerEnum e => Derive.registerEnum e
  | .sortDirectionEnum => do let _ ← Derive.sortDirectionEnum; pure ()
  | .scalarFilter kind => do let _ ← Derive.scalarFilter kind; pure ()
  | .filterInput t logical => do let _ ← Derive.filterInput t logical; pure ()
  | .sortInput t => do let _ ← Derive.sortInput t; pure ()
  | .foldType known logical decl => Derive.foldType known logical decl
  | .addQuery o => Derive.addQuery o
  | .addMutation o => Derive.addMutation o

/-- The draft after a step, whether it succeeds or fails. -/
def after (d : Draft) (step : Step) : Draft := (d.take step.derive).2

/-- The draft after steps taken one after the other. -/
def run (d : Draft) (steps : List Step) : Draft := steps.foldl after d

theorem run_append (d : Draft) (steps more : List Step) :
    d.run (steps ++ more) = (d.run steps).run more :=
  List.foldl_append

theorem Step.keeps (step : Step) :
    Derive.Keeps (Derive.Holding []) step.derive fun _ => Derive.Holding [] := by
  cases step with
  | registerInput i => exact (Derive.keeps_registerInput i).weaken fun _ a h => ⟨h.1, by simp⟩
  | registerEnum e => exact Derive.keeps_registerEnum e
  | sortDirectionEnum => exact Derive.keeps_sortDirectionEnum.bind fun _ => .pure fun _ => id
  | scalarFilter kind => exact (Derive.keeps_scalarFilter kind).bind fun _ => .pure fun _ => id
  | filterInput t logical =>
    exact (Derive.keeps_filterInput t logical).bind fun _ => .pure fun a h => ⟨h.1, by simp⟩
  | sortInput t =>
    exact (Derive.keeps_sortInput t).bind fun _ => .pure fun a h => ⟨h.1, by simp⟩
  | foldType known logical decl => exact Derive.keeps_foldType known logical decl
  | addQuery o => exact Derive.keeps_addQuery o
  | addMutation o => exact Derive.keeps_addMutation o

/-- **However a step ends, it has made a complete addition for which there was room.** -/
theorem gains_after (d : Draft) (step : Step) : ∃ a, a.Complete ∧ d.Gains a (d.after step) := by
  have hempty : Derive.Holding [] ({} : Addition) :=
    ⟨Addition.complete_of_nil rfl rfl, by simp⟩
  obtain ⟨a, hgains, hend⟩ := step.keeps d d {} (.refl d) hempty
  rw [Addition.empty_append] at hgains hend
  refine ⟨a, ?_, hgains⟩
  split at hend
  · exact hend.1
  · exact hend

theorem Coherent.run {d : Draft} (hd : d.Coherent) (steps : List Step) :
    (d.run steps).Coherent ∧ d.Extends (d.run steps) := by
  induction steps generalizing d with
  | nil => exact ⟨hd, .refl d⟩
  | cons step rest ih =>
    obtain ⟨a, ha, hgains⟩ := d.gains_after step
    obtain ⟨hcoherent, hextends⟩ := ih (hgains.coherent_of_complete hd ha)
    exact ⟨hcoherent, (hgains.extends_of_complete hd ha).trans hextends⟩

/-- **Every draft that steps can lead to is coherent, and whatever steps come next, they only append
to it.** Whether steps succeed or fail makes no difference. -/
theorem coherent_run (declared : List String) (steps more : List Step) :
    ((start declared).run steps).Coherent ∧
      ((start declared).run steps).Extends ((start declared).run (steps ++ more)) := by
  have hcoherent := ((coherent_start declared).run steps).1
  rw [run_append]
  exact ⟨hcoherent, (hcoherent.run more).2⟩

/-- A family that cannot be finished stays as far as it came, and its kind does not count. -/
example :
    let d := (start ["IntFilterInput"]).run [.scalarFilter .int, .scalarFilter .id]
    d.inputs.keys = ["IntLeGeInput", "IntLeGtInput", "IntLtGeInput", "IntLtGtInput",
      "IntEqualityInput", "IDEqualityInput", "IDFilterInput"] ∧ d.kinds = [.id] := by
  decide

end Draft

end CrudSchema
