import CrudSchema.Proofs.Families
import Mathlib.Data.List.Find

/-!
# The family of a kind is built once or never

**Calls** (`Derive.Calls`). A call for the filter of a scalar kind finds the kind built, or builds
its whole family, or stops at the first name of the family that is taken; then the inputs before it
stay registered and the kind does not count.

**Blocked kinds** (`Draft.Blocked`). After a call that stopped, the first name of the family is
taken, by whatever was there or by the half-built family itself. Taken names never become free and a
kind is recorded only with its whole family, so the kind stays blocked along every run
(`Blocked.run`), as a built kind stays built (`kinds_run`).

**Other kinds** (`Draft.SameFor`). A call takes no name of another kind's family, so what it leaves
is the same draft for the calls of other kinds.

Main result: `scalarFilter_once_or_never`.
-/

namespace CrudSchema

open Naming

/-! ## Registering several inputs -/

namespace Derive

variable {d : Draft} {kind : ScalarKind}

/-- How registering inputs ends: they are all there, or those before one whose name is taken. -/
inductive Registers (d : Draft) (is : List InputObject) : Except SynthesisError Unit × Draft → Prop
  | through {d' : Draft} (gains : d.Gains { inputs := is } d') : Registers d is (.ok (), d')
  | stopped {before after : List InputObject} {i : InputObject} {d' : Draft}
      (order : is = before ++ i :: after) (gains : d.Gains { inputs := before } d')
      (met : i.name ∈ d'.taken) : Registers d is (.error (.nameTaken i.name), d')

theorem take_registerInput_of_taken {i : InputObject} (h : i.name ∈ d.taken) :
    d.take (registerInput i) = (.error (.nameTaken i.name), d) :=
  Draft.take_bind_error ((take_checkFree d i.name).trans (if_pos h)) _

theorem exists_take_registerInput {i : InputObject} (h : i.name ∉ d.taken) :
    ∃ d', d.take (registerInput i) = (.ok (), d') ∧ d.Gains { inputs := [i] } d' := by
  cases adds_registerInput (d := d) i with
  | fits room run grows => exact ⟨_, run, room, grows⟩
  | collides room run collision =>
    refine absurd ⟨?_, ?_, ?_, ?_⟩ room
    · simpa [Addition.typeNames] using h
    · simp [Addition.typeNames]
    · simpa using d.query.nodup_keys
    · simpa using d.mutation.nodup_keys

theorem Registers.cons {i : InputObject} {rest : List InputObject} {d' : Draft}
    {outcome : Except SynthesisError Unit × Draft} (hfirst : d.Gains { inputs := [i] } d')
    (h : Registers d' rest outcome) : Registers d (i :: rest) outcome := by
  cases h with
  | through gains => exact .through (hfirst.trans gains)
  | @stopped before after j d'' order gains met =>
    have horder : i :: rest = (i :: before) ++ j :: after := congrArg (i :: ·) order
    exact .stopped horder (hfirst.trans gains) met

theorem registers_registerInputs (d : Draft) (is : List InputObject) :
    Registers d is (d.take (registerInputs is)) := by
  induction is generalizing d with
  | nil => exact .through (.refl d)
  | cons i rest ih =>
    by_cases hi : i.name ∈ d.taken
    · have hstop : d.take (registerInputs (i :: rest)) = (.error (.nameTaken i.name), d) :=
        Draft.take_bind_error (take_registerInput_of_taken hi) _
      rw [hstop]
      exact .stopped (List.nil_append _).symm (.refl d) hi
    · obtain ⟨d', hrun, hgains⟩ := exists_take_registerInput hi
      have hrest : d.take (registerInputs (i :: rest)) = d'.take (registerInputs rest) :=
        Draft.take_bind_ok hrun _
      rw [hrest]
      exact .cons hgains (ih d')

/-! ## Calls -/

/-- How a call for a kind ends: the kind is built, or now is, or a name of its family is taken. -/
inductive Calls (d : Draft) (kind : ScalarKind) : Except SynthesisError String × Draft → Prop
  | present (built : kind ∈ d.kinds) : Calls d kind (.ok (Naming.scalarFilter kind), d)
  | builds {d' : Draft} (unbuilt : kind ∉ d.kinds) (gains : d.Gains (families [kind]) d') :
      Calls d kind (.ok (Naming.scalarFilter kind), d')
  | stops {before after : List InputObject} {i : InputObject} {d' : Draft}
      (unbuilt : kind ∉ d.kinds) (order : (FilterShape.of kind).family = before ++ i :: after)
      (gains : d.Gains { inputs := before } d') (met : i.name ∈ d'.taken) :
      Calls d kind (.error (.nameTaken i.name), d')

theorem take_scalarFilter_of_built (h : kind ∈ d.kinds) :
    d.take (scalarFilter kind) = (.ok (Naming.scalarFilter kind), d) := by
  have hcontains : d.kinds.contains kind = true := by simpa using h
  rw [scalarFilter, Draft.take_get_bind, if_pos hcontains, (FilterShape.filterInput_of kind).1]
  rfl

/-- A fault among the inputs of the family is the fault of the call. -/
theorem take_scalarFilter_of_error (h : kind ∉ d.kinds) {e : SynthesisError} {d' : Draft}
    (hfamily : d.take (registerInputs (FilterShape.of kind).family) = (.error e, d')) :
    d.take (scalarFilter kind) = (.error e, d') := by
  have hcontains : ¬ d.kinds.contains kind = true := by simpa using h
  rw [scalarFilter, Draft.take_get_bind, if_neg hcontains]
  exact Draft.take_bind_error hfamily _

/-- There is room for a family if its inputs have room. -/
theorem fits_families (h : d.Fits { inputs := (FilterShape.of kind).family }) :
    d.Fits (families [kind]) := by
  have hsame : families [kind] =
      ({ inputs := (FilterShape.of kind).family } : Addition) ++ { kinds := [kind] } := by
    ext1 <;> simp [families]
  rw [hsame]
  constructor
  · simpa [Addition.typeNames] using h.free
  · simpa [Addition.typeNames] using h.distinct
  · simpa using h.query
  · simpa using h.mutation

theorem calls_scalarFilter (d : Draft) (kind : ScalarKind) :
    Calls d kind (d.take (scalarFilter kind)) := by
  by_cases h : kind ∈ d.kinds
  · rw [take_scalarFilter_of_built h]
    exact .present h
  · have hadds := adds_scalarFilter (d := d) kind
    have hfamily := registers_registerInputs d (FilterShape.of kind).family
    rw [if_neg h] at hadds
    rcases hrun : d.take (registerInputs (FilterShape.of kind).family) with ⟨e | ⟨⟩, d'⟩
    · rw [hrun] at hfamily
      rw [take_scalarFilter_of_error h hrun]
      cases hfamily with
      | stopped order gains met => exact .stops h order gains met
    · rw [hrun] at hfamily
      cases hadds with
      | fits room run grows =>
        rw [run, (FilterShape.filterInput_of kind).1]
        exact .builds h ⟨room, grows⟩
      | collides room run collision =>
        cases hfamily with
        | through gains => exact absurd (fits_families gains.room) room

end Derive

/-! ## Built and blocked kinds -/

namespace Draft

variable {d d' : Draft} {kind : ScalarKind} {a : Addition}

theorem after_scalarFilter (d : Draft) (kind : ScalarKind) :
    d.after (.scalarFilter kind) = (d.take (Derive.scalarFilter kind)).2 := by
  have hrun : d.after (.scalarFilter kind) =
      (d.take (Derive.scalarFilter kind >>= fun _ => pure ())).2 := rfl
  rw [hrun, take_bind]
  rcases d.take (Derive.scalarFilter kind) with ⟨e | name, d'⟩ <;> rfl

/-- The kind is not built, and the first name of its family is taken. -/
structure Blocked (d : Draft) (kind : ScalarKind) : Prop where
  unbuilt : kind ∉ d.kinds
  met : ∃ n, (familyNames kind).head? = some n ∧ n ∈ d.taken

/-- **A complete addition keeps a kind blocked:** its family does not fit. -/
theorem Blocked.of_gains (h : d.Blocked kind) (hgains : d.Gains a d') (ha : a.Complete) :
    d'.Blocked kind := by
  obtain ⟨n, hhead, htaken⟩ := h.met
  refine ⟨fun hkind => ?_, n, hhead, hgains.grows.mem_taken.2 (.inl htaken)⟩
  rw [hgains.grows.kinds, List.mem_append] at hkind
  have hadded : kind ∈ a.kinds := hkind.resolve_left h.unbuilt
  have hname : n ∈ (FilterShape.of kind).family.map InputObject.name := by
    rw [FilterShape.map_name_family]
    exact List.mem_of_head? hhead
  obtain ⟨i, hi, rfl⟩ := List.mem_map.1 hname
  refine hgains.room.free i.name ?_ htaken
  exact List.mem_append_left _ (List.mem_map_of_mem (ha.families kind hadded i hi))

theorem Blocked.run (h : d.Blocked kind) (steps : List Step) : (d.run steps).Blocked kind := by
  induction steps generalizing d with
  | nil => exact h
  | cons step rest ih =>
    obtain ⟨a, ha, hgains⟩ := d.gains_after step
    exact ih (h.of_gains hgains ha)

theorem kinds_run (d : Draft) (steps : List Step) : d.kinds ⊆ (d.run steps).kinds := by
  induction steps generalizing d with
  | nil => exact List.Subset.refl _
  | cons step rest ih =>
    obtain ⟨a, -, hgains⟩ := d.gains_after step
    have hkinds : d.kinds ⊆ (d.after step).kinds := by
      rw [hgains.grows.kinds]
      exact List.subset_append_left _ _
    exact List.Subset.trans hkinds (ih _)

/-- A blocked kind is refused, and nothing is registered. -/
theorem Blocked.take_scalarFilter (h : d.Blocked kind) : ∃ n ∈ familyNames kind,
    d.take (Derive.scalarFilter kind) = (.error (.nameTaken n), d) := by
  obtain ⟨n, hhead, htaken⟩ := h.met
  have hfirst : (FilterShape.of kind).family.head?.map InputObject.name = some n := by
    rw [← List.head?_map, FilterShape.map_name_family, hhead]
  obtain ⟨i, hi, rfl⟩ := Option.map_eq_some_iff.1 hfirst
  obtain ⟨rest, hfamily⟩ := List.head?_eq_some_iff.1 hi
  refine ⟨i.name, List.mem_of_head? hhead, Derive.take_scalarFilter_of_error h.unbuilt ?_⟩
  rw [hfamily]
  exact take_bind_error (Derive.take_registerInput_of_taken htaken) _

/-- After a call that gives a name the kind is built. -/
theorem built_of_ok {name : String} (h : (d.take (Derive.scalarFilter kind)).1 = .ok name) :
    name = scalarFilter kind ∧ kind ∈ (d.after (.scalarFilter kind)).kinds := by
  have hcalls := Derive.calls_scalarFilter d kind
  rw [after_scalarFilter]
  generalize d.take (Derive.scalarFilter kind) = outcome at h hcalls ⊢
  cases hcalls with
  | present built => exact ⟨(Except.ok.inj h).symm, built⟩
  | builds unbuilt gains =>
    refine ⟨(Except.ok.inj h).symm, ?_⟩
    rw [gains.grows.kinds]
    exact List.mem_append_right _ (List.mem_singleton_self kind)
  | stops unbuilt order gains met => cases h

/-- After a call that fails the kind is blocked. -/
theorem blocked_of_error {e : SynthesisError}
    (h : (d.take (Derive.scalarFilter kind)).1 = .error e) :
    (d.after (.scalarFilter kind)).Blocked kind := by
  have hcalls := Derive.calls_scalarFilter d kind
  rw [after_scalarFilter]
  generalize d.take (Derive.scalarFilter kind) = outcome at h hcalls ⊢
  cases hcalls with
  | present built => cases h
  | builds unbuilt gains => cases h
  | @stops before after i d' unbuilt order gains met =>
    refine ⟨by simpa [gains.grows.kinds] using unbuilt, ?_⟩
    rw [← FilterShape.map_name_family, order]
    cases before with
    | nil => exact ⟨i.name, rfl, met⟩
    | cons j before =>
      -- The half-built family itself has the first name.
      refine ⟨j.name, rfl, gains.grows.mem_taken.2 (.inr ?_)⟩
      exact List.mem_append_left _ (List.mem_map_of_mem List.mem_cons_self)

/-! ## Other kinds -/

/-- What a call for the kind depends on is the same in both drafts. -/
structure SameFor (kind : ScalarKind) (d d' : Draft) : Prop where
  built : kind ∈ d'.kinds ↔ kind ∈ d.kinds
  taken : ∀ n ∈ familyNames kind, n ∈ d'.taken ↔ n ∈ d.taken

theorem SameFor.refl (kind : ScalarKind) (d : Draft) : SameFor kind d d :=
  ⟨Iff.rfl, fun _ _ => Iff.rfl⟩

theorem SameFor.trans {d'' : Draft} (h : SameFor kind d d') (h' : SameFor kind d' d'') :
    SameFor kind d d'' :=
  ⟨h'.built.trans h.built, fun n hn => (h'.taken n hn).trans (h.taken n hn)⟩

theorem SameFor.of_gains (hgains : d.Gains a d') (hkinds : kind ∉ a.kinds)
    (hnames : ∀ n ∈ familyNames kind, n ∉ a.typeNames) : SameFor kind d d' where
  built := by simp [hgains.grows.kinds, hkinds]
  taken n hn := by simp [hgains.grows.mem_taken, hnames n hn]

/-- The result of a call for a kind that is not built: the first name that is taken is at fault. -/
theorem result_scalarFilter (h : kind ∉ d.kinds) :
    (d.take (Derive.scalarFilter kind)).1 =
      match (familyNames kind).find? fun n => n ∈ d.taken with
      | some n => .error (.nameTaken n)
      | none => .ok (scalarFilter kind) := by
  have hcalls := Derive.calls_scalarFilter d kind
  generalize d.take (Derive.scalarFilter kind) = outcome at hcalls ⊢
  cases hcalls with
  | present built => exact absurd built h
  | builds unbuilt gains =>
    have hnone : (familyNames kind).find? (fun n => n ∈ d.taken) = none := by
      rw [List.find?_eq_none]
      intro n hn
      have hadded : n ∈ (Derive.families [kind]).typeNames := by
        simpa [Addition.typeNames, Derive.families, FilterShape.map_name_family] using hn
      simpa using gains.room.free n hadded
    rw [hnone]
  | @stops before after i d' unbuilt order gains met =>
    have hnames : familyNames kind =
        before.map InputObject.name ++ i.name :: after.map InputObject.name := by
      rw [← FilterShape.map_name_family, order, List.map_append, List.map_cons]
    have hbefore : ∀ n ∈ before.map InputObject.name, n ∉ d.taken := fun n hn =>
      gains.room.free n (List.mem_append_left _ hn)
    have hi : i.name ∈ d.taken := by
      refine (gains.grows.mem_taken.1 met).resolve_right fun hadded => ?_
      have hnodup := familyNames_nodup [kind] (List.nodup_singleton kind)
      rw [List.flatMap_singleton, hnames, List.nodup_append] at hnodup
      refine hnodup.2.2 _ ?_ _ List.mem_cons_self rfl
      simpa [Addition.typeNames] using hadded
    have hfind : (familyNames kind).find? (fun n => n ∈ d.taken) = some i.name := by
      rw [List.find?_eq_some_iff_append]
      refine ⟨by simpa using hi, _, _, hnames, fun n hn => ?_⟩
      simpa using hbefore n hn
    rw [hfind]

theorem SameFor.result (h : SameFor kind d d') : (d'.take (Derive.scalarFilter kind)).1 =
    (d.take (Derive.scalarFilter kind)).1 := by
  by_cases hbuilt : kind ∈ d.kinds
  · rw [Derive.take_scalarFilter_of_built hbuilt,
      Derive.take_scalarFilter_of_built (h.built.2 hbuilt)]
  · rw [result_scalarFilter hbuilt, result_scalarFilter (mt h.built.1 hbuilt)]
    have hfind : (familyNames kind).find? (fun n => n ∈ d'.taken) =
        (familyNames kind).find? (fun n => n ∈ d.taken) :=
      List.find?_congr fun n hn => decide_eq_decide.2 (h.taken n hn)
    rw [hfind]

/-- **A call changes nothing for another kind.** -/
theorem SameFor.after {other : ScalarKind} (hne : kind ≠ other) (d : Draft) :
    SameFor kind d (d.after (.scalarFilter other)) := by
  have hfree : ∀ n ∈ familyNames kind, n ∉ familyNames other := fun n hn hother =>
    hne (eq_of_mem_familyNames hn hother)
  have hcalls := Derive.calls_scalarFilter d other
  rw [after_scalarFilter]
  generalize d.take (Derive.scalarFilter other) = outcome at hcalls ⊢
  cases hcalls with
  | present built => exact .refl kind d
  | builds unbuilt gains =>
    refine .of_gains gains (by simpa [Derive.families] using hne) fun n hn hadded => hfree n hn ?_
    simpa [Addition.typeNames, Derive.families, FilterShape.map_name_family] using hadded
  | @stops before after i d' unbuilt order gains met =>
    refine .of_gains gains List.not_mem_nil fun n hn hadded => hfree n hn ?_
    rw [← FilterShape.map_name_family, order, List.map_append]
    refine List.mem_append_left _ ?_
    simpa [Addition.typeNames] using hadded

theorem SameFor.run {others : List ScalarKind} (h : kind ∉ others) (d : Draft) :
    SameFor kind d (d.run (others.map .scalarFilter)) := by
  induction others generalizing d with
  | nil => exact .refl kind d
  | cons other rest ih =>
    rw [List.mem_cons, not_or] at h
    obtain ⟨hother, hrest⟩ := h
    exact (SameFor.after hother d).trans (ih hrest _)

/-! ## Once or never -/

/-- **The family of a kind is built once or never.** In any draft, once a call for a kind has given
a name, every later call gives the same name and leaves the draft as it is, whatever steps lie
between. Once it has failed, every later call fails, for a name of the family, and also leaves the
draft as it is; the kind is never recorded. How a call for a kind ends does not depend on calls for
other kinds. -/
theorem scalarFilter_once_or_never (d : Draft) (kind : ScalarKind) :
    (∀ name, (d.take (Derive.scalarFilter kind)).1 = .ok name → ∀ more,
      let later := (d.after (.scalarFilter kind)).run more
      later.take (Derive.scalarFilter kind) = (.ok name, later)) ∧
    (∀ e, (d.take (Derive.scalarFilter kind)).1 = .error e → ∀ more,
      let later := (d.after (.scalarFilter kind)).run more
      kind ∉ later.kinds ∧ ∃ n ∈ familyNames kind,
        later.take (Derive.scalarFilter kind) = (.error (.nameTaken n), later)) ∧
    ∀ others : List ScalarKind, kind ∉ others →
      ((d.run (others.map .scalarFilter)).take (Derive.scalarFilter kind)).1 =
        (d.take (Derive.scalarFilter kind)).1 := by
  refine ⟨fun name hok more => ?_, fun e herror more => ?_, fun others hothers => ?_⟩
  · obtain ⟨rfl, hbuilt⟩ := built_of_ok hok
    exact Derive.take_scalarFilter_of_built (kinds_run _ more hbuilt)
  · have hblocked := (blocked_of_error herror).run more
    exact ⟨hblocked.unbuilt, hblocked.take_scalarFilter⟩
  · exact (SameFor.run hothers d).result

/-- Beside a declared `IntFilterInput` the family of integers is begun and never finished; that of
identifiers is built once. -/
theorem declared_intFilter_blocks_int :
    let d := start ["IntFilterInput"]
    let more : List Step := [.scalarFilter .int, .registerInput { name := "Extra" }]
    (d.take (Derive.scalarFilter .int)).1 = .error (.nameTaken "IntFilterInput") ∧
    (d.take (Derive.scalarFilter .id)).1 = .ok "IDFilterInput" ∧
    .int ∉ ((d.after (.scalarFilter .int)).run more).kinds ∧
    (((d.after (.scalarFilter .id)).run more).take (Derive.scalarFilter .id)).1 =
      .ok "IDFilterInput" ∧
    ((d.run [.scalarFilter .int]).take (Derive.scalarFilter .id)).1 = .ok "IDFilterInput" := by
  intro d more
  have hint : (d.take (Derive.scalarFilter .int)).1 = .error (.nameTaken "IntFilterInput") := by
    decide
  have hid : (d.take (Derive.scalarFilter .id)).1 = .ok "IDFilterInput" := by decide
  obtain ⟨-, hnever, -⟩ := scalarFilter_once_or_never d .int
  obtain ⟨honce, -, halone⟩ := scalarFilter_once_or_never d .id
  refine ⟨hint, hid, (hnever _ hint more).1, ?_, ?_⟩
  · rw [honce _ hid more]
  · exact (halone [.int] (by decide)).trans hid

end Draft

end CrudSchema
