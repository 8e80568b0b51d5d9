import CrudSchema.Proofs.Merging

/-!
# Registries along a run of calls

**Calls** (`Registry.Call`). A registry takes in single declarations and whole documents. A call
that fails leaves what it did before it failed, and the run goes on (`Registry.run`).

**Two maps** (`Columns`). The same registry as a map of declarations and a map of sources, each
written by itself. Nothing in the two maps says that they have the same keys; that a declaration
known to the one has a source in the other is what a conflict relies on when it names both sources.
Both follow from the registry, of which they are the two columns at every step
(`Columns.take_columns`) and after every run (`Columns.run_columns`).

**Growth** (`Registry.Extends`). A step appends an entry or changes nothing, so the entries of a
registry stand in front of those of every later one.

**Stops** (`Registry.Stops`). A call over several declarations that fails is a call over those
before the one at fault, which passes, and then a refusal that changes nothing.

Main result: `Registry.run_sound_atomic`.
-/

namespace CrudSchema

/-! ## Calls -/

namespace Registry

inductive Call where
  | document (d : Document)
  | declaration (s : Sourced)

/-- The declarations a call takes in, in order. -/
def Call.sourced : Call → List Sourced
  | .document d => d.sourced
  | .declaration s => [s]

def call (r : Registry) (c : Call) : Progress := r.registerAll c.sourced

/-- The registry after calls, whether they fail or not. -/
def run (r : Registry) (calls : List Call) : Registry :=
  calls.foldl (fun r c => (r.call c).registry) r

theorem run_cons (r : Registry) (c : Call) (calls : List Call) :
    r.run (c :: calls) = (r.call c).registry.run calls := rfl

end Registry

/-! ## Two maps -/

/-- Declarations and their sources, in maps of their own. -/
structure Columns where
  types : TypeMap
  sources : NameMap String

namespace Columns

def empty : Columns := ⟨.empty, .empty⟩

inductive Fault where
  | refused (e : SynthesisError)
  /-- A known declaration has no source. -/
  | unsourced (name : String)

/-- Take in one declaration. A new one is written to the one map and then to the other. -/
def take (c : Columns) (s : Sourced) : Except Fault Columns :=
  if s.declaration.name ∈ reservedNames then .error (.refused (.reservedName s.declaration.name))
  else match repeatedName? [] s.declaration.fieldNames with
    | some field => .error (.refused (.duplicateField s.declaration.name field (some s.source)))
    | none =>
      match c.types.get? s.declaration.name with
      | none =>
        .ok ⟨c.types.set s.declaration.name s.declaration,
          c.sources.set s.declaration.name s.source⟩
      | some present =>
        if present.shape = s.declaration.shape then .ok c
        else match c.sources.get? s.declaration.name with
          | none => .error (.unsourced s.declaration.name)
          | some first =>
            .error (.refused (.duplicateType s.declaration.name [first, s.source] none none))

/-- Take in declarations up to the first fault. -/
def takeAll (c : Columns) : List Sourced → Columns × Option Fault
  | [] => (c, none)
  | s :: rest =>
    match c.take s with
    | .error fault => (c, some fault)
    | .ok c' => c'.takeAll rest

def run (c : Columns) (calls : List Registry.Call) : Columns :=
  calls.foldl (fun c call => (c.takeAll call.sourced).1) c

end Columns

namespace Registry

variable {r : Registry}

/-- The two columns of a registry. -/
def columns (r : Registry) : Columns := ⟨r.build, r.types.mapValues Sourced.source⟩

theorem columns_keys (r : Registry) : r.columns.types.keys = r.columns.sources.keys :=
  (OrderedMap.keys_mapValues _ _).trans (OrderedMap.keys_mapValues _ _).symm

theorem columns_add {s : Sourced} (h : r.judge s = .ok .new) :
    (r.add s).columns = ⟨r.columns.types.set s.declaration.name s.declaration,
      r.columns.sources.set s.declaration.name s.source⟩ := by
  have hkey : s.declaration.name ∉ r.types.keys := not_mem_keys_of_judge h
  -- The name is new in the registry, so it is new in each of its columns.
  have hcolumn : ∀ {β : Type} (f : Sourced → β),
      (r.add s).types.mapValues f = (r.types.mapValues f).set s.declaration.name (f s) := by
    intro β f
    apply OrderedMap.ext
    rw [OrderedMap.entries_set_of_not_mem (by rwa [OrderedMap.keys_mapValues])]
    change (r.add s).types.entries.map _ = r.types.entries.map _ ++ _
    rw [entries_add h, List.map_append, List.map_singleton]
  rw [columns, build, hcolumn, hcolumn]
  rfl

end Registry

namespace Columns

open Registry

variable {r : Registry}

/-- **Two maps take in what a registry takes in**, and refuse what it refuses for the same reason.
-/
theorem take_columns (r : Registry) (s : Sourced) :
    r.columns.take s = match r.judge s with
      | .error e => .error (.refused e)
      | .ok .new => .ok (r.add s).columns
      | .ok .repeated => .ok r.columns := by
  have htypes : r.columns.types.get? s.declaration.name =
      (r.types.get? s.declaration.name).map Sourced.declaration := OrderedMap.get?_mapValues ..
  have hsources : r.columns.sources.get? s.declaration.name =
      (r.types.get? s.declaration.name).map Sourced.source := OrderedMap.get?_mapValues ..
  by_cases hname : s.declaration.name ∈ reservedNames
  · rw [take, judge, if_pos hname, if_pos hname]
  rcases hfields : repeatedName? [] s.declaration.fieldNames with _ | field
  · rcases hpresent : r.types.get? s.declaration.name with _ | present
    · have hjudge : r.judge s = .ok .new := by rw [judge, if_neg hname, hfields, hpresent]
      rw [take, if_neg hname, hfields, htypes, hpresent, hjudge]
      exact congrArg Except.ok (columns_add hjudge).symm
    · -- A declaration known to the first map has its source in the second.
      rw [hpresent] at htypes hsources
      by_cases hshape : present.declaration.shape = s.declaration.shape
      · simp only [take, judge, if_neg hname, hfields, htypes, hpresent, Option.map_some,
          if_pos hshape]
      · simp only [take, judge, if_neg hname, hfields, htypes, hsources, hpresent,
          Option.map_some, if_neg hshape]
  · simp only [take, judge, if_neg hname, hfields]

/-- Two maps go through the declarations of a call as the registry does. -/
theorem takeAll_columns (r : Registry) (l : List Sourced) :
    r.columns.takeAll l =
      ((r.registerAll l).registry.columns, (r.registerAll l).fault.map Fault.refused) := by
  induction l generalizing r with
  | nil => rfl
  | cons s rest ih =>
    rw [takeAll, take_columns, registerAll]
    cases r.judge s with
    | error e => rfl
    | ok standing =>
      cases standing with
      | new => exact ih (r.add s)
      | repeated => exact ih r

theorem run_columns (r : Registry) (calls : List Call) :
    r.columns.run calls = (r.run calls).columns := by
  induction calls generalizing r with
  | nil => rfl
  | cons c calls ih =>
    change (r.columns.takeAll c.sourced).1.run calls = _
    rw [takeAll_columns, Registry.run_cons]
    exact ih _

end Columns

namespace Registry

variable {r : Registry}

/-! ## What stays -/

/-- The later registry has the entries of the earlier one in front. -/
def Extends (r later : Registry) : Prop := r.types.entries <+: later.types.entries

theorem Extends.refl (r : Registry) : r.Extends r := List.prefix_refl _

theorem Extends.trans {r₁ r₂ r₃ : Registry} (h₁ : r₁.Extends r₂) (h₂ : r₂.Extends r₃) :
    r₁.Extends r₃ := List.IsPrefix.trans h₁ h₂

theorem extends_add {s : Sourced} (h : r.judge s = .ok .new) : r.Extends (r.add s) := by
  rw [Extends, entries_add h]
  exact List.prefix_append _ _

theorem extends_registerAll (r : Registry) (l : List Sourced) :
    r.Extends (r.registerAll l).registry := by
  induction l generalizing r with
  | nil => exact .refl r
  | cons s rest ih =>
    rw [registerAll]
    split
    · exact .refl r
    next hjudge => exact (extends_add hjudge).trans (ih _)
    · exact ih r

theorem extends_run (r : Registry) (calls : List Call) : r.Extends (r.run calls) := by
  induction calls generalizing r with
  | nil => exact .refl r
  | cons c calls ih => exact (extends_registerAll r c.sourced).trans (ih _)

theorem Extends.columns {later : Registry} (h : r.Extends later) :
    r.columns.types.entries <+: later.columns.types.entries ∧
      r.columns.sources.entries <+: later.columns.sources.entries :=
  ⟨List.IsPrefix.map _ h, List.IsPrefix.map _ h⟩

theorem Sound.run (h : Sound r) (calls : List Call) : Sound (r.run calls) := by
  induction calls generalizing r with
  | nil => exact h
  | cons c calls ih => exact ih (h.registerAll c.sourced)

/-! ## Where a call stops -/

theorem registerAll_of_new {s : Sourced} (h : r.judge s = .ok .new) (rest : List Sourced) :
    r.registerAll (s :: rest) = (r.add s).registerAll rest := by
  rw [registerAll, h]

/-- A repetition leaves no trace but its record. -/
theorem registerAll_of_repeated {s : Sourced} (h : r.judge s = .ok .repeated)
    (rest : List Sourced) :
    (r.registerAll (s :: rest)).registry = (r.registerAll rest).registry ∧
      (r.registerAll (s :: rest)).fault = (r.registerAll rest).fault := by
  rw [registerAll, h]
  exact ⟨rfl, rfl⟩

theorem registerAll_of_error {s : Sourced} {e : SynthesisError} (h : r.judge s = .error e)
    (rest : List Sourced) : r.registerAll (s :: rest) = ⟨r, [], some e⟩ := by
  rw [registerAll, h]

/-- Some declarations pass and lead to a registry that refuses the next one. -/
structure Stops (r : Registry) (before : List Sourced) (s : Sourced) (e : SynthesisError)
    (stopped : Registry) : Prop where
  passes : (r.registerAll before).fault = none
  reached : (r.registerAll before).registry = stopped
  refuses : stopped.judge s = .error e

theorem stops_of_fault {l : List Sourced} {e : SynthesisError}
    (h : (r.registerAll l).fault = some e) : ∃ before s after, l = before ++ s :: after ∧
      Stops r before s e (r.registerAll l).registry := by
  induction l generalizing r with
  | nil => cases h
  | cons s rest ih =>
    rcases hjudge : r.judge s with e' | standing
    · rw [registerAll_of_error hjudge] at h ⊢
      cases h
      exact ⟨[], s, rest, rfl, rfl, rfl, hjudge⟩
    · cases standing with
      | new =>
        rw [registerAll_of_new hjudge] at h ⊢
        obtain ⟨before, t, after, rfl, hstops⟩ := ih h
        refine ⟨s :: before, t, after, rfl, ?_, ?_, hstops.refuses⟩ <;>
          rw [registerAll_of_new hjudge]
        · exact hstops.passes
        · exact hstops.reached
      | repeated =>
        obtain ⟨hregistry, hfault⟩ := registerAll_of_repeated hjudge rest
        rw [hfault] at h
        rw [hregistry]
        obtain ⟨before, t, after, rfl, hstops⟩ := ih h
        obtain ⟨hbefore, hpasses⟩ := registerAll_of_repeated hjudge before
        exact ⟨s :: before, t, after, rfl, hpasses.trans hstops.passes,
          hbefore.trans hstops.reached, hstops.refuses⟩

/-- A refused declaration changes nothing. -/
theorem call_declaration_of_fault {s : Sourced} {e : SynthesisError}
    (h : (r.call (.declaration s)).fault = some e) : (r.call (.declaration s)).registry = r := by
  obtain ⟨before, t, after, horder, hstops⟩ := stops_of_fault h
  cases before with
  | nil => exact hstops.reached.symm
  | cons first before => simp [Call.sourced] at horder

/-- Declarations that pass in one call pass one by one. -/
theorem run_declarations {l : List Sourced} (h : (r.registerAll l).fault = none) :
    r.run (l.map .declaration) = (r.registerAll l).registry := by
  induction l generalizing r with
  | nil => rfl
  | cons s rest ih =>
    rw [List.map_cons, run_cons]
    rcases hjudge : r.judge s with e | standing
    · rw [registerAll_of_error hjudge] at h
      cases h
    · cases standing with
      | new =>
        rw [registerAll_of_new hjudge] at h ⊢
        rw [← ih h]
        exact congrArg (fun p : Progress => p.registry.run _) (registerAll_of_new hjudge [])
      | repeated =>
        obtain ⟨hregistry, hfault⟩ := registerAll_of_repeated hjudge rest
        rw [hregistry, ← ih (hfault.symm.trans h)]
        exact congrArg (fun r : Registry => r.run _) (registerAll_of_repeated hjudge []).1

theorem call_document_of_fault {d : Document} {e : SynthesisError}
    (h : (r.call (.document d)).fault = some e) : ∃ before failing after,
      d.types = before ++ failing :: after ∧
      (r.call (.document { d with types := before })).fault = none ∧
      r.run (before.map fun t => .declaration ⟨t, d.source⟩) =
        (r.call (.document d)).registry ∧
      ((r.call (.document d)).registry.call (.declaration ⟨failing, d.source⟩)).fault = some e := by
  obtain ⟨before, s, after, horder, hstops⟩ := stops_of_fault h
  obtain ⟨first, rest, htypes, rfl, hrest⟩ := List.map_eq_append_iff.1 horder
  obtain ⟨failing, last, rfl, rfl, -⟩ := List.map_eq_cons_iff.1 hrest
  refine ⟨first, failing, last, htypes, hstops.passes, ?_, ?_⟩
  · have hrun := run_declarations hstops.passes
    rw [List.map_map] at hrun
    exact hrun.trans hstops.reached
  · exact congrArg Progress.fault (registerAll_of_error hstops.refuses [])

/-! ## A whole run -/

/-- **Registries are sound along every run, and calls that fail stop cleanly.** After any calls the
two maps hold the same names in the same order, every declaration stands under its own name and is
acceptable, and whatever calls come later leave every entry of either map in its place. A
declaration that is refused changes nothing. A document that is refused leaves what the declarations
before the one at fault lead to, and that one by itself is refused there for the same reason. -/
theorem run_sound_atomic (calls more : List Call) :
    let r := empty.run calls
    (Columns.empty.run calls = r.columns ∧ r.columns.types.keys = r.columns.sources.keys ∧
      ∀ c : Call, r.columns.takeAll c.sourced =
        ((r.call c).registry.columns, (r.call c).fault.map Columns.Fault.refused)) ∧
    (∀ e ∈ r.columns.types.entries, e.1 = e.2.name ∧ e.2.name ∉ reservedNames ∧
      e.2.fieldNames.Nodup) ∧
    (r.columns.types.entries <+: (r.run more).columns.types.entries ∧
      r.columns.sources.entries <+: (r.run more).columns.sources.entries) ∧
    (∀ s e, (r.call (.declaration s)).fault = some e → (r.call (.declaration s)).registry = r) ∧
    ∀ d e, (r.call (.document d)).fault = some e → ∃ before failing after,
      d.types = before ++ failing :: after ∧
      (r.call (.document { d with types := before })).fault = none ∧
      r.run (before.map fun t => .declaration ⟨t, d.source⟩) =
        (r.call (.document d)).registry ∧
      ((r.call (.document d)).registry.call (.declaration ⟨failing, d.source⟩)).fault = some e := by
  intro r
  have hsound : Sound r := sound_empty.run calls
  refine ⟨⟨Columns.run_columns empty calls, columns_keys r,
    fun c => Columns.takeAll_columns r c.sourced⟩, ?_, (extends_run r more).columns,
    fun s e => call_declaration_of_fault, fun d e => call_document_of_fault⟩
  intro e he
  obtain ⟨entry, hentry, rfl⟩ := List.mem_map.1 he
  have hacceptable := hsound.acceptable entry hentry
  exact ⟨hsound.named entry hentry, hacceptable.unreserved, hacceptable.distinct⟩

def firstUser : Document :=
  { source := "a", types := [{ name := "User", fields := [⟨"id", .named "ID", false⟩] }] }

/-- At odds with the first user in its second declaration. -/
def secondUser : Document :=
  { source := "b", types := [{ name := "Tag" }, { name := "User" }, { name := "Post" }] }

/-- A declaration of a root type is refused as a whole, and the document after its first one. -/
theorem secondUser_stops :
    let r := empty.run [.document firstUser]
    (r.call (.declaration ⟨{ name := "Query" }, "b"⟩)).registry = r ∧
    (r.call (.document secondUser)).fault = some (.duplicateType "User" ["a", "b"] none none) ∧
    ∃ before failing after, secondUser.types = before ++ failing :: after ∧
      r.run (before.map fun t => .declaration ⟨t, "b"⟩) =
        (r.call (.document secondUser)).registry := by
  obtain ⟨-, -, -, hdeclaration, hdocument⟩ := run_sound_atomic [.document firstUser] []
  obtain ⟨before, failing, after, horder, -, hreached, -⟩ :=
    hdocument secondUser (.duplicateType "User" ["a", "b"] none none) (by decide)
  exact ⟨hdeclaration _ (.reservedName "Query") (by decide), by decide,
    before, failing, after, horder, hreached⟩

end Registry

end CrudSchema
