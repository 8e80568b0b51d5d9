import CrudSchema.Proofs.OrderedMap
import CrudSchema.Registry

/-!
# What a merged map holds

**Acceptable declarations** (`Declaration.Acceptable`). A name that is not reserved, and fields with
distinct names. That is what a registry asks of a declaration by itself.

**Merged maps** (`Merged`). Every declaration of a merged map stands under its own name and is
acceptable (`merged_of_merge`), and it is one of the declarations of the documents
(`mem_documents_of_merge`). The first holds of every registry that a run goes through.
-/

namespace CrudSchema

/-! ## One declaration -/

structure Declaration.Acceptable (d : Declaration) : Prop where
  unreserved : d.name ∉ reservedNames
  distinct : d.fieldNames.Nodup

theorem repeatedName?_eq_none_iff {seen names : List String} :
    repeatedName? seen names = none ↔ names.Nodup ∧ ∀ n ∈ names, n ∉ seen := by
  induction names generalizing seen with
  | nil => simp [repeatedName?]
  | cons n rest ih =>
    rw [repeatedName?]
    by_cases h : n ∈ seen
    · simp [h]
    · rw [if_neg h, ih, List.nodup_cons, List.forall_mem_cons]
      constructor
      · rintro ⟨hnodup, hfree⟩
        refine ⟨⟨fun hn => hfree n hn (List.mem_cons_self ..), hnodup⟩, h, fun m hm hs => ?_⟩
        exact hfree m hm (List.mem_cons_of_mem _ hs)
      · rintro ⟨⟨hn, hnodup⟩, -, hfree⟩
        refine ⟨hnodup, fun m hm hs => ?_⟩
        rcases List.mem_cons.1 hs with rfl | hs
        · exact hn hm
        · exact hfree m hm hs

namespace Registry

/-- A registry passes acceptable declarations only. -/
theorem acceptable_of_judge {r : Registry} {s : Sourced} {standing : Standing}
    (h : r.judge s = .ok standing) : s.declaration.Acceptable := by
  rw [judge] at h
  split at h
  · cases h
  next hname =>
    split at h
    · cases h
    next hfields =>
      exact ⟨hname, (repeatedName?_eq_none_iff.1 hfields).1⟩

theorem not_mem_keys_of_judge {r : Registry} {s : Sourced} (h : r.judge s = .ok .new) :
    s.declaration.name ∉ r.types.keys := by
  rw [judge] at h
  split at h
  · cases h
  · split at h
    · cases h
    · split at h
      next hget => exact OrderedMap.get?_eq_none_iff.1 hget
      · split at h <;> cases h

theorem mem_keys_of_judge {r : Registry} {s : Sourced} (h : r.judge s = .ok .repeated) :
    s.declaration.name ∈ r.types.keys := by
  by_contra hnew
  rw [judge, OrderedMap.get?_eq_none_iff.2 hnew] at h
  split at h
  · cases h
  · split at h <;> cases h

/-! ## Registries -/

/-- Every declaration is acceptable and stands under its own name. -/
structure Sound (r : Registry) : Prop where
  named : ∀ e ∈ r.types.entries, e.1 = e.2.declaration.name
  acceptable : ∀ e ∈ r.types.entries, e.2.declaration.Acceptable

theorem sound_empty : Sound empty := by
  constructor <;> simp [empty, OrderedMap.empty]

theorem entries_add {r : Registry} {s : Sourced} (h : r.judge s = .ok .new) :
    (r.add s).types.entries = r.types.entries ++ [(s.declaration.name, s)] :=
  OrderedMap.entries_set_of_not_mem (not_mem_keys_of_judge h)

theorem Sound.add {r : Registry} (hr : Sound r) {s : Sourced} (h : r.judge s = .ok .new) :
    Sound (r.add s) := by
  constructor <;> intro e he <;> rw [entries_add h, List.mem_append, List.mem_singleton] at he
  · rcases he with he | rfl
    · exact hr.named e he
    · rfl
  · rcases he with he | rfl
    · exact hr.acceptable e he
    · exact acceptable_of_judge h

theorem Sound.registerAll {r : Registry} (hr : Sound r) (l : List Sourced) :
    Sound (r.registerAll l).registry := by
  induction l generalizing r with
  | nil => exact hr
  | cons s rest ih =>
    rw [Registry.registerAll]
    split
    · exact hr
    next h => exact ih (hr.add h)
    · exact ih hr

theorem mem_registerAll {r : Registry} {l : List Sourced} {e : String × Sourced}
    (he : e ∈ (r.registerAll l).registry.types.entries) : e ∈ r.types.entries ∨ e.2 ∈ l := by
  induction l generalizing r with
  | nil => exact .inl he
  | cons s rest ih =>
    rw [registerAll] at he
    split at he
    · exact .inl he
    next h =>
      rcases ih he with he | he
      · rw [entries_add h, List.mem_append, List.mem_singleton] at he
        rcases he with he | rfl
        · exact .inl he
        · exact .inr (List.mem_cons_self ..)
      · exact .inr (List.mem_cons_of_mem _ he)
    · exact (ih he).imp_right (List.mem_cons_of_mem _)

end Registry

/-! ## Merged maps -/

structure Merged (types : TypeMap) : Prop where
  named : ∀ e ∈ types.entries, e.1 = e.2.name
  acceptable : ∀ d ∈ types.values, d.Acceptable

namespace Merged

variable {types : TypeMap}

theorem keys_eq (h : Merged types) : types.keys = types.values.map Declaration.name :=
  OrderedMap.keys_eq_map_values h.named

theorem nodup_names (h : Merged types) : (types.values.map Declaration.name).Nodup :=
  h.keys_eq ▸ types.nodup_keys

theorem name_mem_keys (h : Merged types) {d : Declaration} (hd : d ∈ types.values) :
    d.name ∈ types.keys := by
  rw [h.keys_eq]
  exact List.mem_map_of_mem hd

theorem not_mem_reservedNames (h : Merged types) {n : String} (hn : n ∈ types.keys) :
    n ∉ reservedNames := by
  rw [h.keys_eq] at hn
  obtain ⟨d, hd, rfl⟩ := List.mem_map.1 hn
  exact (h.acceptable d hd).unreserved

theorem ne_scalar (h : Merged types) {n : String} (hn : n ∈ types.keys) (kind : ScalarKind) :
    n ≠ kind.name := by
  rintro rfl
  refine h.not_mem_reservedNames hn ?_
  cases kind <;> decide

end Merged

theorem build_of_merge {documents : List Document} {types : TypeMap}
    (h : (merge documents).result = .ok types) :
    types = (Registry.empty.registerAll (documents.flatMap Document.sourced)).registry.build := by
  rw [merge] at h
  split at h
  · cases h
  · cases h
    rfl

theorem merged_of_merge {documents : List Document} {types : TypeMap}
    (h : (merge documents).result = .ok types) : Merged types := by
  have hsound := Registry.sound_empty.registerAll (documents.flatMap Document.sourced)
  rw [build_of_merge h]
  constructor
  · intro e he
    obtain ⟨⟨n, s⟩, hs, rfl⟩ := List.mem_map.1 he
    exact hsound.named _ hs
  · intro d hd
    obtain ⟨e, he, rfl⟩ := List.mem_map.1 hd
    obtain ⟨⟨n, s⟩, hs, rfl⟩ := List.mem_map.1 he
    exact hsound.acceptable _ hs

theorem mem_documents_of_merge {documents : List Document} {types : TypeMap}
    (h : (merge documents).result = .ok types) {d : Declaration} (hd : d ∈ types.values) :
    ∃ document ∈ documents, d ∈ document.types := by
  rw [build_of_merge h] at hd
  obtain ⟨e, he, rfl⟩ := List.mem_map.1 hd
  obtain ⟨⟨n, s⟩, hs, rfl⟩ := List.mem_map.1 he
  rcases Registry.mem_registerAll hs with hs | hs
  · simp [Registry.empty, OrderedMap.empty] at hs
  · obtain ⟨document, hdocument, hs⟩ := List.mem_flatMap.1 hs
    obtain ⟨t, ht, rfl⟩ := List.mem_map.1 hs
    exact ⟨document, hdocument, ht⟩

end CrudSchema
