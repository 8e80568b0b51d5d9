import CrudSchema.Draft
import CrudSchema.Proofs.OrderedMap

/-!
# What steps add to a draft

**Additions** (`Addition`). The inputs, enums, kinds, operations and derived tables that a step
appends, in order. Additions of steps taken one after the other are appended to each other.

**Growth** (`Draft.Grows`). One draft is another one with an addition at its end; only the journal
is free.

**Room** (`Draft.Fits`). The types of an addition have names of their own that nothing has yet, and
so do its queries and its mutations.

**Steps** (`Derive.Adds`). A step that adds something succeeds exactly when there is room for it. If
there is none, its fault tells which names met (`Collision`). What two steps add one after the other
follows from what each adds (`Adds.bind`).
-/

namespace CrudSchema

/-! ## Additions -/

structure Addition where
  inputs : List InputObject := []
  enums : List EnumType := []
  kinds : List ScalarKind := []
  query : List Operation := []
  mutation : List Operation := []
  derived : List DerivedTypes := []

namespace Addition

instance : Append Addition where
  append a b :=
    ⟨a.inputs ++ b.inputs, a.enums ++ b.enums, a.kinds ++ b.kinds, a.query ++ b.query,
      a.mutation ++ b.mutation, a.derived ++ b.derived⟩

@[ext]
theorem ext {a b : Addition} (inputs : a.inputs = b.inputs) (enums : a.enums = b.enums)
    (kinds : a.kinds = b.kinds) (query : a.query = b.query) (mutation : a.mutation = b.mutation)
    (derived : a.derived = b.derived) : a = b := by
  cases a; cases b; simp_all

variable (a b c : Addition)

@[simp] theorem inputs_append : (a ++ b).inputs = a.inputs ++ b.inputs := rfl
@[simp] theorem enums_append : (a ++ b).enums = a.enums ++ b.enums := rfl
@[simp] theorem kinds_append : (a ++ b).kinds = a.kinds ++ b.kinds := rfl
@[simp] theorem query_append : (a ++ b).query = a.query ++ b.query := rfl
@[simp] theorem mutation_append : (a ++ b).mutation = a.mutation ++ b.mutation := rfl
@[simp] theorem derived_append : (a ++ b).derived = a.derived ++ b.derived := rfl

theorem append_empty : a ++ ({} : Addition) = a := by ext1 <;> simp

theorem empty_append : ({} : Addition) ++ a = a := by ext1 <;> simp

theorem append_assoc : a ++ b ++ c = a ++ (b ++ c) := by ext1 <;> simp

/-- The names of the types. -/
def typeNames : List String := a.inputs.map InputObject.name ++ a.enums.map EnumType.name

theorem typeNames_append_perm : (a ++ b).typeNames.Perm (a.typeNames ++ b.typeNames) := by
  simp only [typeNames, inputs_append, enums_append, List.map_append, List.append_assoc]
  refine List.Perm.append_left _ ?_
  rw [← List.append_assoc, ← List.append_assoc]
  exact List.perm_append_comm.append_right _

variable {a b}

theorem mem_typeNames_append {n : String} :
    n ∈ (a ++ b).typeNames ↔ n ∈ a.typeNames ∨ n ∈ b.typeNames := by
  rw [(typeNames_append_perm a b).mem_iff, List.mem_append]

end Addition

/-! ## Growth -/

namespace Draft

/-- The names that no derived type can take. -/
def taken (d : Draft) : List String := d.declared ++ d.inputs.keys ++ d.enums.keys

theorem isTaken_iff {d : Draft} {n : String} : d.isTaken n = true ↔ n ∈ d.taken := by
  simp [isTaken, taken, OrderedMap.contains_eq_true_iff, or_assoc]

/-- `d'` is `d` with an addition at its end. -/
structure Grows (d : Draft) (a : Addition) (d' : Draft) : Prop where
  declared : d'.declared = d.declared
  inputs : d'.inputs.entries = d.inputs.entries ++ a.inputs.map fun i => (i.name, i)
  enums : d'.enums.entries = d.enums.entries ++ a.enums.map fun e => (e.name, e)
  kinds : d'.kinds = d.kinds ++ a.kinds
  query : d'.query.entries = d.query.entries ++ a.query.map fun o => (o.name, o)
  mutation : d'.mutation.entries = d.mutation.entries ++ a.mutation.map fun o => (o.name, o)
  derived : d'.derived = d.derived.setAll (a.derived.map fun t => (t.typeName, t))

namespace Grows

variable {d d' d'' : Draft} {a b : Addition}

theorem refl (d : Draft) : Grows d {} d := by constructor <;> simp [OrderedMap.setAll]

theorem trans (h : Grows d a d') (h' : Grows d' b d'') : Grows d (a ++ b) d'' where
  declared := h'.declared.trans h.declared
  inputs := by rw [h'.inputs, h.inputs]; simp
  enums := by rw [h'.enums, h.enums]; simp
  kinds := by rw [h'.kinds, h.kinds]; simp
  query := by rw [h'.query, h.query]; simp
  mutation := by rw [h'.mutation, h.mutation]; simp
  derived := by rw [h'.derived, h.derived]; simp [OrderedMap.setAll]

theorem mem_taken (h : Grows d a d') {n : String} :
    n ∈ d'.taken ↔ n ∈ d.taken ∨ n ∈ a.typeNames := by
  simp only [taken, Addition.typeNames, OrderedMap.keys, h.declared, h.inputs, h.enums,
    List.map_append, List.mem_append, List.map_map, Function.comp_def]
  tauto

theorem query_keys (h : Grows d a d') :
    d'.query.keys = d.query.keys ++ a.query.map Operation.name := by
  simp [OrderedMap.keys, h.query, Function.comp_def]

theorem mutation_keys (h : Grows d a d') :
    d'.mutation.keys = d.mutation.keys ++ a.mutation.map Operation.name := by
  simp [OrderedMap.keys, h.mutation, Function.comp_def]

end Grows

/-! ## Room -/

structure Fits (d : Draft) (a : Addition) : Prop where
  free : ∀ n ∈ a.typeNames, n ∉ d.taken
  distinct : a.typeNames.Nodup
  query : (d.query.keys ++ a.query.map Operation.name).Nodup
  mutation : (d.mutation.keys ++ a.mutation.map Operation.name).Nodup

theorem fits_empty (d : Draft) : Fits d {} := by
  constructor
  · simp [Addition.typeNames]
  · simp [Addition.typeNames]
  · simpa using d.query.nodup_keys
  · simpa using d.mutation.nodup_keys

theorem Fits.of_append {d : Draft} {a b : Addition} (h : Fits d (a ++ b)) : Fits d a where
  free n hn := h.free n (Addition.mem_typeNames_append.2 (.inl hn))
  distinct := ((Addition.typeNames_append_perm a b).nodup_iff.1 h.distinct).of_append_left
  query := by
    have := h.query
    rw [Addition.query_append, List.map_append, ← List.append_assoc] at this
    exact this.of_append_left
  mutation := by
    have := h.mutation
    rw [Addition.mutation_append, List.map_append, ← List.append_assoc] at this
    exact this.of_append_left

theorem fits_append {d d' : Draft} {a b : Addition} (h : Grows d a d') :
    Fits d (a ++ b) ↔ Fits d a ∧ Fits d' b := by
  constructor
  · intro hfit
    refine ⟨hfit.of_append, fun n hn => ?_, ?_, ?_, ?_⟩
    · have hdistinct := hfit.distinct
      rw [(Addition.typeNames_append_perm a b).nodup_iff, List.nodup_append] at hdistinct
      rw [h.mem_taken, not_or]
      exact ⟨hfit.free n (Addition.mem_typeNames_append.2 (.inr hn)),
        fun hn' => hdistinct.2.2 n hn' n hn rfl⟩
    · exact ((Addition.typeNames_append_perm a b).nodup_iff.1 hfit.distinct).of_append_right
    · rw [h.query_keys, List.append_assoc, ← List.map_append]
      exact hfit.query
    · rw [h.mutation_keys, List.append_assoc, ← List.map_append]
      exact hfit.mutation
  · rintro ⟨hfit, free, distinct, query, mutation⟩
    refine ⟨fun n hn => ?_, ?_, ?_, ?_⟩
    · rcases Addition.mem_typeNames_append.1 hn with hn | hn
      · exact hfit.free n hn
      · exact fun hn' => free n hn (h.mem_taken.2 (.inl hn'))
    · rw [(Addition.typeNames_append_perm a b).nodup_iff, List.nodup_append]
      refine ⟨hfit.distinct, distinct, fun n hn m hm hnm => ?_⟩
      exact free m hm (h.mem_taken.2 (.inr (hnm ▸ hn)))
    · rwa [Addition.query_append, List.map_append, ← List.append_assoc, ← h.query_keys]
    · rwa [Addition.mutation_append, List.map_append, ← List.append_assoc, ← h.mutation_keys]

/-! ## Collisions -/

/-- What a step can complain about when there is no room for what it adds: a name taken before or
twice, or the first operation whose name an earlier one has. -/
inductive Collision (d : Draft) (a : Addition) : SynthesisError → Prop where
  | name {n : String} (mem : n ∈ a.typeNames) (met : n ∈ d.taken ∨ 1 < a.typeNames.count n) :
      Collision d a (.nameTaken n)
  | query {before after : List Operation} {o present : Operation}
      (added : a.query = before ++ o :: after)
      (first : (d.query.keys ++ before.map Operation.name).Nodup)
      (met : (o.name, present) ∈ d.query.entries ++ before.map fun p => (p.name, p)) :
      Collision d a (.duplicateOperation o.name present.typeName o.typeName)
  | mutation {before after : List Operation} {o present : Operation}
      (added : a.mutation = before ++ o :: after)
      (first : (d.mutation.keys ++ before.map Operation.name).Nodup)
      (met : (o.name, present) ∈ d.mutation.entries ++ before.map fun p => (p.name, p)) :
      Collision d a (.duplicateOperation o.name present.typeName o.typeName)

namespace Collision

variable {d d' : Draft} {a b : Addition} {e : SynthesisError}

/-- A collision stays one when more is to be added later. -/
theorem append (h : Collision d a e) : Collision d (a ++ b) e := by
  cases h with
  | name mem met =>
    refine .name (Addition.mem_typeNames_append.2 (.inl mem)) (met.imp_right fun h => ?_)
    rw [(Addition.typeNames_append_perm a b).count_eq, List.count_append]
    omega
  | query added first met =>
    exact .query (by rw [Addition.query_append, added, List.append_assoc, List.cons_append])
      first met
  | mutation added first met =>
    exact .mutation (by rw [Addition.mutation_append, added, List.append_assoc, List.cons_append])
      first met

/-- A collision with a draft that has grown is one of the whole addition. -/
theorem of_grows (h : Collision d' b e) (grows : d.Grows a d') : Collision d (a ++ b) e := by
  cases h with
  | @name n mem met =>
    refine .name (Addition.mem_typeNames_append.2 (.inr mem)) ?_
    rw [(Addition.typeNames_append_perm a b).count_eq, List.count_append]
    rcases met with met | met
    · refine (grows.mem_taken.1 met).imp_right fun hn => ?_
      have hbefore := List.count_pos_iff.2 hn
      have hnow := List.count_pos_iff.2 mem
      omega
    · exact .inr (by omega)
  | query added first met =>
    rw [grows.query_keys, List.append_assoc, ← List.map_append] at first
    rw [grows.query, List.append_assoc, ← List.map_append] at met
    exact .query (by rw [Addition.query_append, added, ← List.append_assoc]) first met
  | mutation added first met =>
    rw [grows.mutation_keys, List.append_assoc, ← List.map_append] at first
    rw [grows.mutation, List.append_assoc, ← List.map_append] at met
    exact .mutation (by rw [Addition.mutation_append, added, ← List.append_assoc]) first met

end Collision

end Draft

end CrudSchema
