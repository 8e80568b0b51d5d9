import CrudSchema.Proofs.Draft
import CrudSchema.Proofs.Inputs
import CrudSchema.Synthesis

/-!
# What each step of a derivation adds

**Runs** (`Draft.take_bind`). A step is run by running its parts; a fault of the first part is the
fault of the whole.

**Steps** (`Derive.Adds`). Each step of a derivation comes with its addition: registering, the
family of a scalar kind, the four inputs of a type, its operations, and all of a type
(`adds_foldType`). It succeeds exactly when there is room for the addition.

**What is there already** (`freshKinds`, `missingEnum`). The families and the enum of sort
directions are added when they are first needed, so what a type adds depends on the kinds and the
enum that the draft has.
-/

namespace CrudSchema

/-! ## Results -/

theorem Except.exists_of_bind {ε α β : Type} {x : Except ε α} {f : α → Except ε β} {b : β}
    (h : x >>= f = .ok b) : ∃ a, x = .ok a ∧ f a = .ok b := by
  cases x with
  | error e => cases h
  | ok a => exact ⟨a, rfl, h⟩

theorem Except.error_of_mapError {ε ε' α : Type} {x : Except ε α} {f : ε → ε'} {e' : ε'}
    (h : x.mapError f = .error e') : ∃ e, x = .error e ∧ f e = e' := by
  cases x with
  | error e => exact ⟨e, rfl, Except.error.inj h⟩
  | ok a => cases h

theorem Except.ok_of_mapError {ε ε' α : Type} {x : Except ε α} {f : ε → ε'} {a : α}
    (h : x.mapError f = .ok a) : x = .ok a := by
  cases x with
  | error e => cases h
  | ok b =>
    cases h
    rfl

theorem Except.exists_of_isOk {ε α : Type} {x : Except ε α} (h : x.isOk = true) :
    ∃ a, x = .ok a := by
  cases x with
  | error e => cases h
  | ok a => exact ⟨a, rfl⟩

theorem Except.eq_ok_of_toOption {ε α : Type} {x : Except ε α} {a : α}
    (h : x.toOption = some a) : x = .ok a := by
  cases x with
  | error e => cases h
  | ok b => exact congrArg Except.ok (Option.some.inj h)

/-! ## Runs -/

section Runs

variable {ε σ α β : Type} {x : ExceptT ε (StateM σ) α} {s s' : σ}

/-- A computation that may fail runs part by part, and leaves its state behind. -/
theorem run_bind_ok {a : α} (h : (ExceptT.run x).run s = (.ok a, s'))
    (f : α → ExceptT ε (StateM σ) β) :
    (ExceptT.run (x >>= f)).run s = (ExceptT.run (f a)).run s' := by
  rw [ExceptT.run_bind, StateT.run_bind, h]
  rfl

theorem run_bind_error {e : ε} (h : (ExceptT.run x).run s = (.error e, s'))
    (f : α → ExceptT ε (StateM σ) β) :
    (ExceptT.run (x >>= f)).run s = (.error e, s') := by
  rw [ExceptT.run_bind, StateT.run_bind, h]
  rfl

end Runs

namespace Draft

variable {α β : Type}

theorem take_pure (d : Draft) (a : α) : d.take (pure a) = (.ok a, d) := rfl

theorem take_modify (d : Draft) (f : Draft → Draft) :
    d.take (modify f : Derive Unit) = (.ok (), f d) := rfl

theorem take_get_bind (d : Draft) (f : Draft → Derive α) : d.take (get >>= f) = d.take (f d) := rfl

theorem take_bind_ok {d d' : Draft} {x : Derive α} {a : α} (h : d.take x = (.ok a, d'))
    (f : α → Derive β) : d.take (x >>= f) = d'.take (f a) :=
  run_bind_ok h f

theorem take_bind_error {d d' : Draft} {x : Derive α} {e : SynthesisError}
    (h : d.take x = (.error e, d')) (f : α → Derive β) :
    d.take (x >>= f) = (.error e, d') :=
  run_bind_error h f

theorem take_bind (d : Draft) (x : Derive α) (f : α → Derive β) :
    d.take (x >>= f) =
      match d.take x with
      | (.ok a, d') => d'.take (f a)
      | (.error e, d') => (.error e, d') := by
  rcases h : d.take x with ⟨e | a, d'⟩
  · exact take_bind_error h f
  · exact take_bind_ok h f

end Draft

namespace Derive

variable {α β : Type} {d : Draft} {a b : Addition}

/-! ## Steps and their additions -/

/-- The step succeeds with a value and adds `a` if there is room for that, and fails otherwise. -/
inductive Adds (step : Derive α) (d : Draft) (a : Addition) (value : α) : Prop where
  | fits {d' : Draft} (room : d.Fits a) (run : d.take step = (.ok value, d')) (grows : d.Grows a d')
  | collides {d' : Draft} {e : SynthesisError} (room : ¬ d.Fits a)
    (run : d.take step = (.error e, d')) (collision : d.Collision a e)

namespace Adds

theorem of_grows {step : Derive α} {value : α} {d' : Draft}
    (run : d.take step = (.ok value, d')) (grows : d.Grows {} d') : Adds step d {} value :=
  .fits d.fits_empty run grows

theorem pure (value : α) : Adds (Pure.pure value) d {} value :=
  of_grows (d.take_pure value) (.refl d)

/-- A step that runs like another adds what the other adds. -/
theorem congr {x y : Derive α} {v : α} (hy : Adds y d a v) (h : d.take x = d.take y) :
    Adds x d a v := by
  cases hy with
  | fits room run grows => exact .fits room (h.trans run) grows
  | collides room run collision => exact .collides room (h.trans run) collision

theorem tell (r : Record) : Adds (Derive.tell r) d {} () :=
  of_grows (d.take_modify _) (by constructor <;> simp [OrderedMap.setAll])

/-- **Two steps add one after the other what each adds.** -/
theorem bind {x : Derive α} {f : α → Derive β} {v : α} {w : β} (hx : Adds x d a v)
    (hf : ∀ {d'}, d.Grows a d' → Adds (f v) d' b w) : Adds (x >>= f) d (a ++ b) w := by
  cases hx with
  | collides room run collision =>
    exact .collides (fun h => room h.of_append) (Draft.take_bind_error run f) collision.append
  | fits room run grows =>
    cases hf grows with
    | fits room' run' grows' =>
      exact .fits ((Draft.fits_append grows).2 ⟨room, room'⟩)
        ((Draft.take_bind_ok run f).trans run') (grows.trans grows')
    | collides room' run' collision =>
      exact .collides (fun h => room' ((Draft.fits_append grows).1 h).2)
        ((Draft.take_bind_ok run f).trans run') (collision.of_grows grows)

/-- A second step that adds nothing. -/
theorem bind_left {x : Derive α} {f : α → Derive β} {v : α} {w : β} (hx : Adds x d a v)
    (hf : ∀ {d'}, Adds (f v) d' {} w) : Adds (x >>= f) d a w := by
  simpa only [Addition.append_empty] using hx.bind fun _ => hf

/-- A first step that adds nothing. -/
theorem bind_right {x : Derive α} {f : α → Derive β} {v : α} {w : β} (hx : Adds x d {} v)
    (hf : ∀ {d'}, d.Grows {} d' → Adds (f v) d' b w) : Adds (x >>= f) d b w := by
  simpa only [Addition.empty_append] using hx.bind hf

/-- **A step succeeds exactly when there is room.** -/
theorem succeeds_iff {step : Derive α} {value : α} (h : Adds step d a value) :
    (∃ v d', d.take step = (.ok v, d')) ↔ d.Fits a := by
  cases h with
  | fits room run grows => exact ⟨fun _ => room, fun _ => ⟨_, _, run⟩⟩
  | collides room run collision =>
    exact ⟨fun ⟨v, d', hrun⟩ => by simp [run] at hrun, fun h => absurd h room⟩

theorem grows_of_ok {step : Derive α} {value v : α} {d' : Draft} (h : Adds step d a value)
    (run : d.take step = (.ok v, d')) : d.Fits a ∧ v = value ∧ d.Grows a d' := by
  cases h with
  | fits room run' grows =>
    rw [run'] at run
    cases run
    exact ⟨room, rfl, grows⟩
  | collides room run' collision => simp [run'] at run

end Adds

/-! ## Registering -/

theorem take_checkFree (d : Draft) (n : String) :
    d.take (checkFree n) = if n ∈ d.taken then (.error (.nameTaken n), d) else (.ok (), d) := by
  by_cases h : n ∈ d.taken
  · rw [if_pos h, checkFree, Draft.take_get_bind, Draft.isTaken_iff.2 h]
    rfl
  · rw [if_neg h, checkFree, Draft.take_get_bind,
      Bool.eq_false_iff.2 (mt Draft.isTaken_iff.1 h)]
    rfl

/-- A step behind the check for a name adds the one thing of that name, if it does so where the
name is free. -/
theorem adds_checkFree_bind {n : String} {step : Derive Unit} (hnames : a.typeNames = [n])
    (hquery : a.query = []) (hmutation : a.mutation = [])
    (hstep : n ∉ d.taken → ∃ d', d.take step = (.ok (), d') ∧ d.Grows a d') :
    Adds (checkFree n >>= fun _ => step) d a () := by
  by_cases h : n ∈ d.taken
  · exact .collides (fun hfit => hfit.free n (by simp [hnames]) h)
      (Draft.take_bind_error ((take_checkFree d n).trans (if_pos h)) _)
      (.name (by simp [hnames]) (.inl h))
  · obtain ⟨d', hrun, hgrows⟩ := hstep h
    exact .fits ⟨by simpa [hnames] using h, by simp [hnames],
      by simpa [hquery] using d.query.nodup_keys, by simpa [hmutation] using d.mutation.nodup_keys⟩
      ((Draft.take_bind_ok ((take_checkFree d n).trans (if_neg h)) _).trans hrun) hgrows

theorem adds_registerInput (i : InputObject) : Adds (registerInput i) d { inputs := [i] } () := by
  refine adds_checkFree_bind rfl rfl rfl fun h => ⟨_, rfl, ?_⟩
  have hkey : i.name ∉ d.inputs.keys := fun hk => h (by simp [Draft.taken, hk])
  constructor <;> simp [OrderedMap.setAll, OrderedMap.entries_set_of_not_mem hkey]

theorem adds_registerEnum (e : EnumType) : Adds (registerEnum e) d { enums := [e] } () := by
  refine adds_checkFree_bind rfl rfl rfl fun h => ⟨_, rfl, ?_⟩
  have hkey : e.name ∉ d.enums.keys := fun hk => h (by simp [Draft.taken, hk])
  constructor <;> simp [OrderedMap.setAll, OrderedMap.entries_set_of_not_mem hkey]

theorem adds_registerInputs (is : List InputObject) :
    Adds (registerInputs is) d { inputs := is } () := by
  induction is generalizing d with
  | nil => exact .pure ()
  | cons i rest ih =>
    show Adds (registerInput i >>= fun _ => registerInputs rest) d
      ({ inputs := [i] } ++ { inputs := rest }) ()
    exact (adds_registerInput i).bind fun _ => ih

theorem take_checkOperation_ok {given : NameMap Operation} {o : Operation}
    (h : o.name ∉ given.keys) (d : Draft) : d.take (checkOperation given o) = (.ok (), d) := by
  rw [checkOperation, OrderedMap.get?_eq_none_iff.2 h]
  rfl

theorem take_checkOperation_error {given : NameMap Operation} {o present : Operation}
    (h : given.get? o.name = some present) (d : Draft) :
    d.take (checkOperation given o) =
      (.error (.duplicateOperation o.name present.typeName o.typeName), d) := by
  rw [checkOperation, h]
  rfl

theorem nodup_keys_append_name {given : NameMap Operation} {o : Operation} :
    (given.keys ++ [o].map Operation.name).Nodup ↔ o.name ∉ given.keys := by
  rw [List.map_singleton, List.nodup_append_comm, List.singleton_append, List.nodup_cons]
  exact and_iff_left given.nodup_keys

theorem adds_addQuery (o : Operation) : Adds (addQuery o) d { query := [o] } () := by
  rcases hget : d.query.get? o.name with _ | present
  · have hkey := OrderedMap.get?_eq_none_iff.1 hget
    refine .fits ⟨by simp [Addition.typeNames], by simp [Addition.typeNames],
      nodup_keys_append_name.2 hkey, by simpa using d.mutation.nodup_keys⟩
      (Draft.take_bind_ok (take_checkOperation_ok hkey d) _) ?_
    constructor <;> simp [OrderedMap.setAll, OrderedMap.entries_set_of_not_mem hkey]
  · have hmem := OrderedMap.get?_eq_some_iff.1 hget
    have hkey := OrderedMap.mem_keys_of_mem_entries hmem
    exact .collides (fun hfit => nodup_keys_append_name.1 hfit.query hkey)
      (Draft.take_bind_error (take_checkOperation_error hget d) _)
      (.query (show [o] = [] ++ [o] from rfl) (by simpa using d.query.nodup_keys)
        (by simpa using hmem))

theorem adds_addMutation (o : Operation) : Adds (addMutation o) d { mutation := [o] } () := by
  rcases hget : d.mutation.get? o.name with _ | present
  · have hkey := OrderedMap.get?_eq_none_iff.1 hget
    refine .fits ⟨by simp [Addition.typeNames], by simp [Addition.typeNames],
      by simpa using d.query.nodup_keys, nodup_keys_append_name.2 hkey⟩
      (Draft.take_bind_ok (take_checkOperation_ok hkey d) _) ?_
    constructor <;> simp [OrderedMap.setAll, OrderedMap.entries_set_of_not_mem hkey]
  · have hmem := OrderedMap.get?_eq_some_iff.1 hget
    have hkey := OrderedMap.mem_keys_of_mem_entries hmem
    exact .collides (fun hfit => nodup_keys_append_name.1 hfit.mutation hkey)
      (Draft.take_bind_error (take_checkOperation_error hget d) _)
      (.mutation (show [o] = [] ++ [o] from rfl) (by simpa using d.mutation.nodup_keys)
        (by simpa using hmem))

/-! ## The families of scalar kinds -/

/-- The kinds of a list that are not there yet, each once, in the order of first use. -/
def freshKinds (present : List ScalarKind) : List ScalarKind → List ScalarKind
  | [] => []
  | k :: rest =>
    if k ∈ present then freshKinds present rest else k :: freshKinds (present ++ [k]) rest

/-- The families of some kinds. -/
def families (kinds : List ScalarKind) : Addition where
  inputs := kinds.flatMap fun k => (FilterShape.of k).family
  kinds := kinds

theorem families_cons (k : ScalarKind) (rest : List ScalarKind) :
    families (k :: rest) = families [k] ++ families rest := by
  ext1 <;> simp [families]

theorem adds_kind (kind : ScalarKind) (d : Draft) :
    Adds (modify fun d => { d with kinds := d.kinds ++ [kind] }) d { kinds := [kind] } () :=
  .fits ⟨by simp [Addition.typeNames], by simp [Addition.typeNames],
    by simpa using d.query.nodup_keys, by simpa using d.mutation.nodup_keys⟩
    (d.take_modify _) (by constructor <;> simp [OrderedMap.setAll])

theorem adds_scalarFilter (kind : ScalarKind) :
    Adds (scalarFilter kind) d (if kind ∈ d.kinds then {} else families [kind])
      (FilterShape.of kind).filterInput.name := by
  by_cases h : kind ∈ d.kinds
  · have hc : d.kinds.contains kind = true := by simpa using h
    rw [if_pos h]
    refine (Adds.pure _).congr ?_
    rw [scalarFilter, Draft.take_get_bind, if_pos hc]
  · have hc : ¬ d.kinds.contains kind = true := by simpa using h
    have hfamily : families [kind] =
        ({ inputs := (FilterShape.of kind).family } : Addition) ++ { kinds := [kind] } := by
      ext1 <;> simp [families]
    obtain ⟨r, hrun⟩ : ∃ r : Record, d.take (scalarFilter kind) = d.take (do
        registerInputs (FilterShape.of kind).family
        tell r
        modify fun d => { d with kinds := d.kinds ++ [kind] }
        pure (FilterShape.of kind).filterInput.name) :=
      ⟨_, by rw [scalarFilter, Draft.take_get_bind, if_neg hc]⟩
    rw [if_neg h, hfamily]
    refine Adds.congr ?_ hrun
    refine (adds_registerInputs _).bind fun _ => (Adds.tell _).bind_right fun _ => ?_
    exact (adds_kind kind _).bind_left (.pure _)

theorem adds_scalarFilters (kinds : List ScalarKind) :
    Adds (scalarFilters kinds) d (families (freshKinds d.kinds kinds)) () := by
  induction kinds generalizing d with
  | nil => exact .pure ()
  | cons k rest ih =>
    by_cases h : k ∈ d.kinds
    · rw [freshKinds, if_pos h]
      refine Adds.bind_right (if_pos h ▸ adds_scalarFilter k) fun {d'} grows => ?_
      have hkinds : d'.kinds = d.kinds := by simpa using grows.kinds
      exact hkinds ▸ ih
    · rw [freshKinds, if_neg h, families_cons]
      refine Adds.bind (if_neg h ▸ adds_scalarFilter k) fun {d'} grows => ?_
      have hkinds : d'.kinds = d.kinds ++ [k] := grows.kinds
      exact hkinds ▸ ih

end Derive

/-! ## The inputs and the operations of a type -/

namespace ClassifiedType

def queries (t : ClassifiedType) : List Operation := [t.singleQuery, t.listQuery]

def mutations (t : ClassifiedType) : List Operation :=
  [t.createMutation, t.updateMutation, t.deleteMutation]

end ClassifiedType

namespace Derive

variable {d : Draft} {t : ClassifiedType} {logical : Bool}

/-- The enum of sort directions, unless it is there. -/
def missingEnum (d : Draft) : List EnumType :=
  if d.enums.contains Naming.sortDirection then [] else [sortDirections]

theorem missingEnum_of_grows {d' : Draft} {a : Addition} (h : d.Grows a d') (ha : a.enums = []) :
    missingEnum d' = missingEnum d := by
  have hkeys : d'.enums.keys = d.enums.keys := by simp [OrderedMap.keys, h.enums, ha]
  have hcontains :
        d'.enums.contains Naming.sortDirection = d.enums.contains Naming.sortDirection := by
    rw [OrderedMap.contains, hkeys, OrderedMap.contains]
  rw [missingEnum, hcontains, missingEnum]

theorem adds_filterInput (h : logical = true → t.clash? = none) :
    Adds (filterInput t logical) d
      (families (freshKinds d.kinds t.filterKinds) ++ { inputs := [t.filterInput logical] })
      (t.filterInput logical) := by
  refine (adds_scalarFilters t.filterKinds).bind fun {d'} _ => ?_
  have hregister : Adds (do registerInput (t.filterInput logical); pure (t.filterInput logical)) d'
      { inputs := [t.filterInput logical] } (t.filterInput logical) :=
    (adds_registerInput _).bind_left (.pure _)
  cases logical with
  | false => exact hregister
  | true =>
    refine hregister.congr ?_
    simp only [h rfl]
    rfl

theorem adds_sortInput :
    Adds (sortInput t) d ({ enums := missingEnum d } ++ { inputs := [t.sortInput] })
      t.sortInput := by
  have hsort : ∀ {d'}, Adds (do registerInput t.sortInput; pure t.sortInput) d'
      { inputs := [t.sortInput] } t.sortInput :=
    (adds_registerInput _).bind_left (.pure _)
  rcases hget : d.enums.get? Naming.sortDirection with _ | e
  · have hmissing : missingEnum d = [sortDirections] := by
      rw [missingEnum, OrderedMap.contains_eq_false_iff.2 (OrderedMap.get?_eq_none_iff.1 hget)]
      rfl
    have henum : Adds sortDirectionEnum d { enums := [sortDirections] } sortDirections := by
      have hregister : Adds (do registerEnum sortDirections; pure sortDirections) d
          { enums := [sortDirections] } sortDirections :=
        (adds_registerEnum _).bind_left (.pure _)
      refine hregister.congr ?_
      rw [sortDirectionEnum, Draft.take_get_bind, hget]
    rw [hmissing]
    exact henum.bind fun _ => hsort
  · have hmissing : missingEnum d = [] := by
      have hkey := OrderedMap.mem_keys_of_mem_entries (OrderedMap.get?_eq_some_iff.1 hget)
      rw [missingEnum, OrderedMap.contains_eq_true_iff.2 hkey]
      rfl
    have henum : Adds sortDirectionEnum d {} e := by
      refine (Adds.pure e).congr ?_
      rw [sortDirectionEnum, Draft.take_get_bind, hget]
    rw [hmissing]
    exact henum.bind fun _ => hsort

theorem adds_addOperations :
    Adds (addOperations t) d { query := t.queries, mutation := t.mutations } () := by
  have hsum : ({ query := t.queries, mutation := t.mutations } : Addition) =
      { query := [t.singleQuery] } ++ ({ query := [t.listQuery] } ++
        ({ mutation := [t.createMutation] } ++ ({ mutation := [t.updateMutation] } ++
          { mutation := [t.deleteMutation] }))) := rfl
  rw [hsum]
  refine (adds_addQuery _).bind fun _ => (adds_addQuery _).bind fun _ => ?_
  exact (adds_addMutation _).bind fun _ => (adds_addMutation _).bind fun _ => adds_addMutation _

/-! ## A type -/

/-- What a type adds where some kinds and enums are there. -/
def typeAddition (logical : Bool) (kinds : List ScalarKind) (enums : List EnumType)
    (t : ClassifiedType) : Addition where
  inputs := (families (freshKinds kinds t.filterKinds)).inputs ++ t.inputs logical
  enums := enums
  kinds := freshKinds kinds t.filterKinds
  query := t.queries
  mutation := t.mutations
  derived := [t.derivedTypes]

theorem adds_derived :
    Adds (modify fun draft => { draft with derived := draft.derived.set t.name t.derivedTypes }) d
      { derived := [t.derivedTypes] } () :=
  .fits ⟨by simp [Addition.typeNames], by simp [Addition.typeNames],
    by simpa using d.query.nodup_keys, by simpa using d.mutation.nodup_keys⟩
    (d.take_modify _) (by constructor <;> simp [OrderedMap.setAll, ClassifiedType.derivedTypes])

theorem adds_classifyType {known : List String} {decl : Declaration}
    (hclass : CrudSchema.classifyType known decl = .ok t) :
    Adds (classifyType known decl) d {} t := by
  rw [classifyType, hclass]
  exact (Adds.tell _).bind_left (.pure t)

/-- **A type that can be classified adds its inputs and its operations.** -/
theorem adds_foldType {known : List String} {decl : Declaration}
    (hclass : CrudSchema.classifyType known decl = .ok t)
    (hclash : logical = true → t.clash? = none) :
    Adds (foldType known logical decl) d
      (typeAddition logical d.kinds (missingEnum d) t) () := by
  have hsum : typeAddition logical d.kinds (missingEnum d) t =
      (families (freshKinds d.kinds t.filterKinds) ++ { inputs := [t.filterInput logical] }) ++
      (({ enums := missingEnum d } ++ { inputs := [t.sortInput] }) ++
        ({ inputs := [t.createInput] } ++ ({ inputs := [t.updateInput] } ++
          ({ derived := [t.derivedTypes] } ++
            { query := t.queries, mutation := t.mutations })))) := by
    ext1 <;> simp [typeAddition, families, ClassifiedType.inputs]
  rw [hsum]
  refine (adds_classifyType hclass).bind_right fun {d₁} grows₁ => ?_
  have hkinds : d₁.kinds = d.kinds := by simpa using grows₁.kinds
  rw [← missingEnum_of_grows grows₁ rfl, ← hkinds]
  refine (adds_filterInput hclash).bind fun {d₂} grows₂ => ?_
  rw [← missingEnum_of_grows grows₂ (by simp [families])]
  refine adds_sortInput.bind fun _ => (adds_registerInput _).bind fun _ => ?_
  refine (adds_registerInput _).bind fun _ => adds_derived.bind fun _ => ?_
  exact adds_addOperations.bind_left (.tell _)

theorem take_foldType_unclassified {known : List String} {decl : Declaration} {e : SynthesisError}
    (hclass : CrudSchema.classifyType known decl = .error e) :
    d.take (foldType known logical decl) = (.error e, d) := by
  refine Draft.take_bind_error (x := classifyType known decl) ?_ _
  rw [classifyType, hclass]
  rfl

/-- A clash is found after the families are there. -/
theorem take_foldType_clash {known : List String} {decl : Declaration} {combinator : String}
    (hclass : CrudSchema.classifyType known decl = .ok t) (hlogical : logical = true)
    (hclash : t.clash? = some combinator) :
    ∃ e d', d.take (foldType known logical decl) = (.error e, d') ∧
      (e = .combinatorClash t.name combinator ∨
        d.Collision (families (freshKinds d.kinds t.filterKinds)) e) := by
  cases adds_classifyType (d := d) hclass with
  | collides room => exact absurd d.fits_empty room
  | @fits d₁ _ run grows =>
    have hkinds : d₁.kinds = d.kinds := by simpa using grows.kinds
    rw [foldType, Draft.take_bind_ok run]
    cases hkinds ▸ adds_scalarFilters (d := d₁) t.filterKinds with
    | @fits d₂ _ run' _ =>
      have hfilter : d₁.take (filterInput t logical) =
          (.error (.combinatorClash t.name combinator), d₂) := by
        rw [filterInput, Draft.take_bind_ok run']
        simp only [hlogical, hclash, if_true]
        rfl
      exact ⟨_, _, Draft.take_bind_error hfilter _, .inl rfl⟩
    | @collides d₂ e _ run' collision =>
      have hfilter : d₁.take (filterInput t logical) = (.error e, d₂) :=
        Draft.take_bind_error run' _
      refine ⟨_, _, Draft.take_bind_error hfilter _, .inr ?_⟩
      simpa only [Addition.empty_append] using collision.of_grows grows

end Derive

end CrudSchema
