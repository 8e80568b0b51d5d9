import CrudSchema.Proofs.Acceptance

/-!
# Checking and compiling

**Broken declarations** (`broken`). Those that cannot be classified. Checking reports the fault of
each, in order (`classificationFaults_forall₂`), before it compiles anything.

**Agreement.** A run that compiles has classified every declaration, so it cannot succeed where one
is broken, whichever fault it meets first (`broken_eq_nil_of_compile`). Where none is broken, the
outcome of compiling is what is reported.

Main result: `check_agrees`.
-/

namespace CrudSchema

/-- The declarations of a map that cannot be classified. -/
def broken (types : TypeMap) : List Declaration :=
  types.values.filter fun d => !(classifyType types.keys d).isOk

/-- **Every broken declaration has its own fault**, in the order of the declarations. -/
theorem classificationFaults_forall₂ (types : TypeMap) :
    List.Forall₂ (fun d e => classifyType types.keys d = .error e) (broken types)
      (classificationFaults types) := by
  rw [broken, classificationFaults]
  induction types.values with
  | nil => exact .nil
  | cons d rest ih =>
    rcases hclass : classifyType types.keys d with e | t
    · rw [List.filter_cons_of_pos (by rw [hclass]; rfl),
        List.filterMap_cons_some (b := e) (by rw [hclass])]
      exact .cons hclass ih
    · rw [List.filter_cons_of_neg (by rw [hclass]; simp [Except.isOk, Except.toBool]),
        List.filterMap_cons_none (by rw [hclass])]
      exact ih

theorem classificationFaults_eq_nil_iff {types : TypeMap} :
    classificationFaults types = [] ↔ broken types = [] := by
  have hlength := (classificationFaults_forall₂ types).length_eq
  rw [← List.length_eq_zero_iff, ← List.length_eq_zero_iff, hlength]

/-- A map that compiles has no broken declaration. -/
theorem broken_eq_nil_of_compile {options : SynthesisOptions} {types : TypeMap} {api : Api}
    (h : (compile options types).result = .ok api) : broken types = [] := by
  by_cases hne : types.keys = []
  · rw [compile_empty hne] at h
    cases h
  · obtain ⟨d, run⟩ := (compile_succeeds_iff_run hne).1 ⟨api, h⟩
    obtain ⟨ts, hts⟩ := Derive.usable_of_ok run
    refine List.filter_eq_nil_iff.2 fun decl hdecl => ?_
    obtain ⟨t, hclass, -⟩ := (forall₂_usable_iff _ _ _).1 ⟨ts, hts⟩ decl hdecl
    rw [hclass]
    exact Bool.false_ne_true

variable {options : SynthesisOptions} {types : TypeMap}

theorem check_of_broken (h : broken types ≠ []) :
    (check options types).1 = ⟨none, classificationFaults types⟩ := by
  rw [check]
  split
  next hnil => exact absurd (classificationFaults_eq_nil_iff.1 hnil) h
  next => rfl

theorem check_of_ok {api : Api} (h : (compile options types).result = .ok api) :
    (check options types).1 = ⟨some api, []⟩ := by
  rw [check, classificationFaults_eq_nil_iff.2 (broken_eq_nil_of_compile h)]
  simp only [h]

theorem check_of_error {e : SynthesisError} (hbroken : broken types = [])
    (h : (compile options types).result = .error e) :
    (check options types).1 = ⟨none, [e]⟩ := by
  rw [check, classificationFaults_eq_nil_iff.2 hbroken]
  simp only [h]

/-- Whether or not a declaration is broken, there is no API where compiling fails. -/
theorem api_check_of_error {e : SynthesisError} (h : (compile options types).result = .error e) :
    (check options types).1.api = none := by
  by_cases hbroken : broken types = []
  · rw [check_of_error hbroken h]
  · rw [check_of_broken hbroken]

/-- **Checking agrees with compiling.** It succeeds exactly when compiling does, with the same API
and no faults. Otherwise there are faults and no API: one for every broken declaration, in order, or
if none is broken the one that compiling ends with. -/
theorem check_agrees (options : SynthesisOptions) (types : TypeMap) :
    ((check options types).1.success = true ↔
      ∃ api, (compile options types).result = .ok api) ∧
    (∀ api, (compile options types).result = .ok api →
      (check options types).1.api = some api ∧ (check options types).1.faults = []) ∧
    ((check options types).1.success = false →
      (check options types).1.api = none ∧ (check options types).1.faults ≠ [] ∧
      (broken types ≠ [] → List.Forall₂ (fun d e => classifyType types.keys d = .error e)
        (broken types) (check options types).1.faults) ∧
      (broken types = [] → ∃ e, (compile options types).result = .error e ∧
        (check options types).1.faults = [e])) := by
  rcases h : (compile options types).result with e | api
  · by_cases hbroken : broken types = []
    · rw [check_of_error hbroken h]
      simp [CheckReport.success, hbroken]
    · have hfaults : classificationFaults types ≠ [] :=
        mt classificationFaults_eq_nil_iff.1 hbroken
      have hall := classificationFaults_forall₂ types
      rw [check_of_broken hbroken]
      simp [CheckReport.success, hbroken, hfaults, hall]
  · rw [check_of_ok h]
    simp [CheckReport.success]

/-- Three types: one without an identifier, a sound one, and one with a field of no known type. -/
def twoBroken : TypeMap :=
  .ofList
    [("Tag", ⟨"Tag", [⟨"name", .named "String", true⟩], none⟩),
      ("User", ⟨"User", [⟨"id", .named "ID", false⟩], none⟩),
      ("Post", ⟨"Post", [⟨"id", .named "ID", false⟩, ⟨"at", .named "Date", true⟩], none⟩)]

/-- The fault of the last type is not hidden behind that of the first. -/
theorem twoBroken_has_both_faults :
    (check {} twoBroken).1.success = false ∧ (check {} twoBroken).1.api = none ∧
      (check {} twoBroken).1.faults =
        [.missingIdentifier "Tag" [], .unsupportedType "Post" "at" "Date"] := by
  have hfailure : (check {} twoBroken).1.success = false := by decide
  obtain ⟨hapi, -, hfaults, -⟩ := (check_agrees {} twoBroken).2.2 hfailure
  have hbroken : broken twoBroken = [⟨"Tag", [⟨"name", .named "String", true⟩], none⟩,
      ⟨"Post", [⟨"id", .named "ID", false⟩, ⟨"at", .named "Date", true⟩], none⟩] := by
    decide
  have hall := hfaults (by rw [hbroken]; exact List.cons_ne_nil _ _)
  refine ⟨hfailure, hapi, ?_⟩
  rw [hbroken] at hall
  have htag : classifyType twoBroken.keys ⟨"Tag", [⟨"name", .named "String", true⟩], none⟩ =
      .error (.missingIdentifier "Tag" []) := by rfl
  have hpost : classifyType twoBroken.keys
      ⟨"Post", [⟨"id", .named "ID", false⟩, ⟨"at", .named "Date", true⟩], none⟩ =
      .error (.unsupportedType "Post" "at" "Date") := by rfl
  generalize (check {} twoBroken).1.faults = faults at hall ⊢
  obtain ⟨e₁, _, he₁, hsecond, rfl⟩ := List.forall₂_cons_left_iff.1 hall
  obtain ⟨e₂, _, he₂, hnone, rfl⟩ := List.forall₂_cons_left_iff.1 hsecond
  obtain rfl := List.forall₂_nil_left_iff.1 hnone
  rw [Except.error.inj (htag.symm.trans he₁), Except.error.inj (hpost.symm.trans he₂)]

end CrudSchema
