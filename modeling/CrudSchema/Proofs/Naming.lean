import CrudSchema.FilterShape
import CrudSchema.Registry
import Mathlib.Data.List.Nodup
import Mathlib.Data.List.Pairwise

/-!
# Derived names never meet

**Inputs of a type** (`InputForm`). The four inputs of a type are told apart by their endings, none
of which ends another, and what stands before the ending is the type: an input tells its form and
its type (`InputForm.name_eq_name_iff`).

**Mutations of a type** (`MutationForm`). The same holds of the beginnings of the three mutations
(`MutationForm.name_eq_name_iff`).

**Scalar kinds** (`familyNames`). The inputs of one kind differ from each other and from those of
the other kinds. An input of a type could only meet them if the type had the name of a scalar
(`not_mem_familyNames`), which no declared type has.

**Queries.** The two queries of a type differ (`queryNames_nodup`); those of two types meet only if
the names of the types differ in case alone, or by an `s` at the end besides
(`nodup_flatMap_queryNames_iff`).

Main results: `derivedNames_nodup`, of the types and kinds of a run, and `derivedName_injective`, of
any two types.
-/

namespace CrudSchema.Naming

open Text

theorem append_self_inj {s t a : String} : s ++ a = t ++ a ↔ s = t := String.append_left_inj a

/-! ## Inputs of a type -/

/-- One of the four inputs of a type. -/
inductive InputForm where
  | filter
  | sort
  | create
  | update
  deriving DecidableEq, Repr

namespace InputForm

/-- The forms in the order in which they are registered. -/
def all : List InputForm := [.filter, .sort, .create, .update]

/-- What the input of a form is called. -/
def name : InputForm → String → String
  | .filter => filterInput
  | .sort => sortInput
  | .create => createInput
  | .update => updateInput

/-- What a form puts after the name of the type. -/
def ending : InputForm → String
  | .filter => "FilterInput"
  | .sort => "SortInput"
  | .create => "CreateInput"
  | .update => "UpdateInput"

variable {f g : InputForm} {s t : String}

theorem mem_all (f : InputForm) : f ∈ all := by cases f <;> decide

theorem name_eq_append (f : InputForm) (t : String) : f.name t = t ++ f.ending := by
  cases f <;> rfl

theorem ending_isSuffix_name (f : InputForm) (t : String) :
    f.ending.toList <:+ (f.name t).toList := by
  rw [name_eq_append, String.toList_append]
  exact List.suffix_append _ _

/-- No ending ends another. -/
theorem eq_of_ending_isSuffix (h : f.ending.toList <:+ g.ending.toList) : f = g := by
  revert h
  cases f <;> cases g <;> decide

/-- **An input tells its form and its type**, even where the type ends like an input itself. -/
theorem name_eq_name_iff : f.name s = g.name t ↔ f = g ∧ s = t := by
  constructor
  · intro h
    have hf : f.ending.toList <:+ (g.name t).toList := h ▸ f.ending_isSuffix_name s
    -- Two endings of one name: the shorter one ends the longer one.
    have hfg : f = g := by
      rcases List.suffix_or_suffix_of_suffix hf (g.ending_isSuffix_name t) with hend | hend
      · exact eq_of_ending_isSuffix hend
      · exact (eq_of_ending_isSuffix hend).symm
    subst hfg
    rw [name_eq_append, name_eq_append] at h
    exact ⟨rfl, append_self_inj.1 h⟩
  · rintro ⟨rfl, rfl⟩
    rfl

example : InputForm.create.name "Sort" = "SortCreateInput" ∧
    InputForm.sort.name "Create" = "CreateSortInput" := by decide

end InputForm

/-- The names of the four inputs of a type, in the order in which they are registered. -/
def inputNames (typeName : String) : List String :=
  [filterInput typeName, sortInput typeName, createInput typeName, updateInput typeName]

theorem inputNames_eq_map (t : String) : inputNames t = InputForm.all.map (·.name t) := rfl

theorem mem_inputNames_iff {t n : String} :
    n ∈ inputNames t ↔ ∃ f : InputForm, f.name t = n := by
  rw [inputNames_eq_map, List.mem_map]
  constructor
  · rintro ⟨f, -, h⟩
    exact ⟨f, h⟩
  · rintro ⟨f, h⟩
    exact ⟨f, f.mem_all, h⟩

theorem inputNames_nodup (t : String) : (inputNames t).Nodup := by
  rw [inputNames_eq_map]
  refine List.Nodup.map ?_ (by decide)
  intro f g h
  exact (InputForm.name_eq_name_iff.1 h).1

/-- An input tells its type. -/
theorem inputNames_disjoint {s t n : String} (hs : n ∈ inputNames s) (ht : n ∈ inputNames t) :
    s = t := by
  obtain ⟨f, hf⟩ := mem_inputNames_iff.1 hs
  obtain ⟨g, hg⟩ := mem_inputNames_iff.1 ht
  exact (InputForm.name_eq_name_iff.1 (hf.trans hg.symm)).2

/-! ## Inputs of a scalar kind -/

/-- The names of the inputs that a scalar kind is compared through: its equality and its ranges. -/
def comparisonNames (kind : ScalarKind) : List String :=
  scalarEquality kind :: ((FilterShape.of kind).variants.filter Variant.isRange).map
    fun v => scalarRange kind v.operators

/-- The names of the inputs of a scalar kind, in the order in which they are registered. -/
def familyNames (kind : ScalarKind) : List String :=
  ((FilterShape.of kind).variants.filter Variant.isRange).map
      (fun v => scalarRange kind v.operators) ++
    [scalarEquality kind, scalarFilter kind]

theorem mem_familyNames_iff {kind : ScalarKind} {n : String} :
    n ∈ familyNames kind ↔ n ∈ comparisonNames kind ∨ n = scalarFilter kind := by
  simp only [familyNames, comparisonNames, List.mem_append, List.mem_cons, List.not_mem_nil,
    or_false]
  tauto

/-- The names of a kind begin with that of the scalar. -/
theorem name_isPrefix_of_mem_familyNames {kind : ScalarKind} {n : String}
    (h : n ∈ familyNames kind) : kind.name.toList <+: n.toList := by
  have hbegin : ∀ a : String, kind.name.toList <+: (kind.name ++ a).toList := by
    intro a
    rw [String.toList_append]
    exact List.prefix_append _ _
  rcases List.mem_append.1 h with h | h
  · obtain ⟨v, -, rfl⟩ := List.mem_map.1 h
    rw [scalarRange, String.append_assoc]
    exact hbegin _
  · simp only [List.mem_cons, List.not_mem_nil, or_false] at h
    rcases h with rfl | rfl
    · exact hbegin _
    · exact hbegin _

/-- No scalar begins another. -/
theorem eq_of_name_isPrefix {k l : ScalarKind} (h : k.name.toList <+: l.name.toList) : k = l := by
  revert h
  cases k <;> cases l <;> decide

/-- The families of two kinds share no name. -/
theorem eq_of_mem_familyNames {k l : ScalarKind} {n : String} (hk : n ∈ familyNames k)
    (hl : n ∈ familyNames l) : k = l := by
  rcases List.prefix_or_prefix_of_prefix (name_isPrefix_of_mem_familyNames hk)
    (name_isPrefix_of_mem_familyNames hl) with hbegin | hbegin
  · exact eq_of_name_isPrefix hbegin
  · exact (eq_of_name_isPrefix hbegin).symm

theorem familyNames_nodup (kinds : List ScalarKind) (h : kinds.Nodup) :
    (kinds.flatMap familyNames).Nodup := by
  refine List.nodup_flatMap.2 ⟨fun kind _ => by cases kind <;> decide, h.imp fun hkl => ?_⟩
  exact List.disjoint_left.2 fun _ hk hl => hkl (eq_of_mem_familyNames hk hl)

example : familyNames .int = ["IntLeGeInput", "IntLeGtInput", "IntLtGeInput", "IntLtGtInput",
    "IntEqualityInput", "IntFilterInput"] := by decide

namespace InputForm

/-- No comparison ends like an input of a type. That is a matter of the operators: a range over
one called `sort` would. -/
theorem name_not_mem_comparisonNames (f : InputForm) (t : String) (kind : ScalarKind) :
    f.name t ∉ comparisonNames kind := by
  have hends : ∀ n ∈ comparisonNames kind, ∀ f ∈ all, ¬ f.ending.toList <:+ n.toList := by
    cases kind <;> decide
  intro h
  exact hends _ h f f.mem_all (f.ending_isSuffix_name t)

theorem name_eq_scalarFilter_iff {f : InputForm} {t : String} {kind : ScalarKind} :
    f.name t = scalarFilter kind ↔ f = .filter ∧ t = kind.name :=
  name_eq_name_iff (g := .filter)

example : InputForm.sort.name "Int" = scalarRange .int ["sort"] := by decide

end InputForm

/-- An input of a type is one of a scalar only if the type has the name of the scalar. -/
theorem not_mem_familyNames {t n : String} {kind : ScalarKind} (ht : t ≠ kind.name)
    (hn : n ∈ inputNames t) : n ∉ familyNames kind := by
  obtain ⟨f, rfl⟩ := mem_inputNames_iff.1 hn
  rw [mem_familyNames_iff, not_or, InputForm.name_eq_scalarFilter_iff]
  exact ⟨f.name_not_mem_comparisonNames t kind, fun h => ht h.2⟩

/-! ## The enum and the scalars are no inputs -/

/-- Every derived input ends in one word. -/
def EndsInInput (n : String) : Prop := "Input".toList <:+ n.toList

theorem endsInInput_append (s : String) {a : String} (h : EndsInInput a) :
    EndsInInput (s ++ a) := by
  rw [EndsInInput, String.toList_append]
  exact h.trans (List.suffix_append _ _)

theorem InputForm.endsInInput_ending (f : InputForm) : EndsInInput f.ending := by
  unfold EndsInInput
  cases f <;> decide

theorem endsInInput_of_mem_inputNames {t n : String} (h : n ∈ inputNames t) : EndsInInput n := by
  obtain ⟨f, rfl⟩ := mem_inputNames_iff.1 h
  rw [f.name_eq_append]
  exact endsInInput_append t f.endsInInput_ending

theorem endsInInput_of_mem_familyNames {kind : ScalarKind} {n : String}
    (h : n ∈ familyNames kind) : EndsInInput n := by
  rcases List.mem_append.1 h with h | h
  · obtain ⟨v, -, rfl⟩ := List.mem_map.1 h
    exact endsInInput_append _ (List.suffix_refl _)
  · simp only [List.mem_cons, List.not_mem_nil, or_false] at h
    rcases h with rfl | rfl
    · exact endsInInput_append _ (by unfold EndsInInput; decide)
    · exact endsInInput_append _ InputForm.filter.endsInInput_ending

theorem not_endsInInput_sortDirection : ¬ EndsInInput sortDirection := by
  unfold EndsInInput; decide

theorem not_endsInInput_of_mem_reservedNames {n : String} (h : n ∈ reservedNames) :
    ¬ EndsInInput n := by
  have hall : ∀ m ∈ reservedNames, ¬ "Input".toList <:+ m.toList := by decide
  exact hall n h

theorem not_endsInInput_scalar (kind : ScalarKind) : ¬ EndsInInput kind.name := by
  apply not_endsInInput_of_mem_reservedNames
  exact List.mem_append_right _ (List.mem_map_of_mem kind.mem_all)

/-- The names of everything derived for some kinds and types. -/
def derivedNames (kinds : List ScalarKind) (typeNames : List String) : List String :=
  kinds.flatMap familyNames ++ typeNames.flatMap inputNames ++ [sortDirection]

/-- **Derived names are distinct**, whatever the types are called, if not like a scalar. -/
theorem derivedNames_nodup {kinds : List ScalarKind} {typeNames : List String}
    (hkinds : kinds.Nodup) (hnames : typeNames.Nodup)
    (hscalar : ∀ n ∈ typeNames, ∀ kind : ScalarKind, n ≠ kind.name) :
    (derivedNames kinds typeNames).Nodup := by
  have hinputs : (typeNames.flatMap inputNames).Nodup :=
    List.nodup_flatMap.2 ⟨fun t _ => inputNames_nodup t, hnames.imp fun hst =>
      List.disjoint_left.2 fun _ hs ht => hst (inputNames_disjoint hs ht)⟩
  rw [derivedNames, List.nodup_append, List.nodup_append]
  refine ⟨⟨familyNames_nodup kinds hkinds, hinputs, ?_⟩, by simp, ?_⟩
  · intro n hn m hm
    obtain ⟨kind, -, hn⟩ := List.mem_flatMap.1 hn
    obtain ⟨t, ht, hm⟩ := List.mem_flatMap.1 hm
    rintro rfl
    exact not_mem_familyNames (hscalar t ht kind) hm hn
  · intro n hn m hm
    obtain rfl := List.mem_singleton.1 hm
    rintro rfl
    refine not_endsInInput_sortDirection ?_
    rcases List.mem_append.1 hn with hn | hn
    · obtain ⟨kind, -, hn⟩ := List.mem_flatMap.1 hn
      exact endsInInput_of_mem_familyNames hn
    · obtain ⟨t, -, hn⟩ := List.mem_flatMap.1 hn
      exact endsInInput_of_mem_inputNames hn

/-! ## Mutations -/

/-- One of the three mutations of a type. -/
inductive MutationForm where
  | create
  | update
  | delete
  deriving DecidableEq, Repr

namespace MutationForm

/-- The forms in the order in which they are registered. -/
def all : List MutationForm := [.create, .update, .delete]

/-- What the mutation of a form is called. -/
def name : MutationForm → String → String
  | .create => createMutation
  | .update => updateMutation
  | .delete => deleteMutation

/-- What a form puts before the name of the type. -/
def beginning : MutationForm → String
  | .create => "create"
  | .update => "update"
  | .delete => "delete"

variable {f g : MutationForm} {s t : String}

theorem mem_all (f : MutationForm) : f ∈ all := by cases f <;> decide

theorem name_eq_append (f : MutationForm) (t : String) : f.name t = f.beginning ++ t := by
  cases f <;> rfl

theorem beginning_isPrefix_name (f : MutationForm) (t : String) :
    f.beginning.toList <+: (f.name t).toList := by
  rw [name_eq_append, String.toList_append]
  exact List.prefix_append _ _

/-- No beginning begins another. -/
theorem eq_of_beginning_isPrefix (h : f.beginning.toList <+: g.beginning.toList) : f = g := by
  revert h
  cases f <;> cases g <;> decide

/-- **A mutation tells its form and its type.** -/
theorem name_eq_name_iff : f.name s = g.name t ↔ f = g ∧ s = t := by
  constructor
  · intro h
    have hf : f.beginning.toList <+: (g.name t).toList := h ▸ f.beginning_isPrefix_name s
    have hfg : f = g := by
      rcases List.prefix_or_prefix_of_prefix hf (g.beginning_isPrefix_name t) with hbegin | hbegin
      · exact eq_of_beginning_isPrefix hbegin
      · exact (eq_of_beginning_isPrefix hbegin).symm
    subst hfg
    rw [name_eq_append, name_eq_append] at h
    exact ⟨rfl, (String.append_right_inj _).1 h⟩
  · rintro ⟨rfl, rfl⟩
    rfl

end MutationForm

/-- The names of the three mutations of a type. -/
def mutationNames (typeName : String) : List String :=
  [createMutation typeName, updateMutation typeName, deleteMutation typeName]

theorem mutationNames_eq_map (t : String) :
    mutationNames t = MutationForm.all.map (·.name t) := rfl

theorem mem_mutationNames_iff {t n : String} :
    n ∈ mutationNames t ↔ ∃ f : MutationForm, f.name t = n := by
  rw [mutationNames_eq_map, List.mem_map]
  constructor
  · rintro ⟨f, -, h⟩
    exact ⟨f, h⟩
  · rintro ⟨f, h⟩
    exact ⟨f, f.mem_all, h⟩

theorem mutationNames_nodup (t : String) : (mutationNames t).Nodup := by
  rw [mutationNames_eq_map]
  refine List.Nodup.map ?_ (by decide)
  intro f g h
  exact (MutationForm.name_eq_name_iff.1 h).1

/-- A mutation tells its type. -/
theorem mutationNames_disjoint {s t n : String} (hs : n ∈ mutationNames s)
    (ht : n ∈ mutationNames t) : s = t := by
  obtain ⟨f, hf⟩ := mem_mutationNames_iff.1 hs
  obtain ⟨g, hg⟩ := mem_mutationNames_iff.1 ht
  exact (MutationForm.name_eq_name_iff.1 (hf.trans hg.symm)).2

/-- Mutations of distinct types are distinct. -/
theorem nodup_flatMap_mutationNames {names : List String} (h : names.Nodup) :
    (names.flatMap mutationNames).Nodup :=
  List.nodup_flatMap.2 ⟨fun t _ => mutationNames_nodup t, h.imp fun hst =>
    List.disjoint_left.2 fun _ hs ht => hst (mutationNames_disjoint hs ht)⟩

/-! ## Queries -/

/-- The names of the two queries of a type. -/
def queryNames (typeName : String) : List String := [singleQuery typeName, listQuery typeName]

theorem append_s_ne (s : String) : s ++ "s" ≠ s := by
  intro h
  have hlen := congrArg String.length h
  rw [String.length_append] at hlen
  exact absurd hlen (by simp)

theorem queryNames_nodup (t : String) : (queryNames t).Nodup := by
  simpa [queryNames, singleQuery, listQuery] using (append_s_ne (lower t)).symm

theorem queryNames_disjoint_iff {s t : String} :
    List.Disjoint (queryNames s) (queryNames t) ↔
      lower s ≠ lower t ∧ lower s ≠ lower t ++ "s" ∧ lower t ≠ lower s ++ "s" := by
  rw [List.disjoint_left]
  simp only [queryNames, singleQuery, listQuery, List.mem_cons, List.not_mem_nil, or_false,
    forall_eq_or_imp, forall_eq, not_or, append_self_inj]
  constructor
  · rintro ⟨⟨h₁, h₂⟩, h₃, -⟩
    exact ⟨h₁, h₂, Ne.symm h₃⟩
  · rintro ⟨h₁, h₂, h₃⟩
    exact ⟨⟨h₁, h₂⟩, Ne.symm h₃, h₁⟩

/-- Queries of distinct types are distinct exactly when the types are told apart by more than case
and an `s` at the end. -/
theorem nodup_flatMap_queryNames_iff {names : List String} (h : names.Nodup) :
    (names.flatMap queryNames).Nodup ↔ ∀ s ∈ names, ∀ t ∈ names, s ≠ t →
      lower s ≠ lower t ∧ lower s ≠ lower t ++ "s" := by
  rw [List.nodup_flatMap]
  constructor
  · rintro ⟨-, hpairs⟩ s hs t ht hst
    have : Std.Symm (Function.onFun List.Disjoint queryNames) := ⟨fun _ _ h _ ht hs => h hs ht⟩
    obtain ⟨h₁, h₂, -⟩ := queryNames_disjoint_iff.1 (hpairs.forall hs ht hst)
    exact ⟨h₁, h₂⟩
  · intro hall
    refine ⟨fun t _ => queryNames_nodup t, h.pairwise_of_forall_ne fun s hs t ht hst => ?_⟩
    obtain ⟨h₁, h₂⟩ := hall s hs t ht hst
    exact queryNames_disjoint_iff.2 ⟨h₁, h₂, (hall t ht s hs hst.symm).2⟩

/-! ## Any two types -/

/-- **Derived names are injective**, whatever the types are called. An input tells its form and its
type; it is neither reserved nor the enum of directions nor a comparison of a scalar, and it is the
filter of a scalar only where the type has the name of the scalar. A mutation tells its form and
its type. -/
theorem derivedName_injective (s t : String) :
    (∀ f g : InputForm, f.name s = g.name t ↔ f = g ∧ s = t) ∧
    (∀ f : InputForm, f.name s ∉ sortDirection :: reservedNames ∧
      ∀ kind, f.name s ∉ comparisonNames kind ∧
        (f.name s = scalarFilter kind ↔ f = .filter ∧ s = kind.name)) ∧
    (∀ f g : MutationForm, f.name s = g.name t ↔ f = g ∧ s = t) := by
  refine ⟨fun _ _ => InputForm.name_eq_name_iff, fun f => ⟨?_, fun kind => ?_⟩,
    fun _ _ => MutationForm.name_eq_name_iff⟩
  · have hinput : EndsInInput (f.name s) :=
      endsInInput_of_mem_inputNames (mem_inputNames_iff.2 ⟨f, rfl⟩)
    rw [List.mem_cons, not_or]
    constructor
    · intro h
      exact not_endsInInput_sortDirection (h ▸ hinput)
    · intro h
      exact not_endsInInput_of_mem_reservedNames h hinput
  · exact ⟨f.name_not_mem_comparisonNames s kind, InputForm.name_eq_scalarFilter_iff⟩

end CrudSchema.Naming
