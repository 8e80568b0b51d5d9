import CrudSchema.OrderedMap
import Mathlib.Data.List.Nodup

/-!
# Laws of maps in order of first insertion

**Reading** (`get?_eq_some_iff`, `get?_eq_none_iff`). Keys are distinct, so a map holds a value
under a key exactly when it has the entry. What a map holds under its keys, in their order, is all
there is to it (`eq_of_get?`); maps that differ in the order only agree (`Agrees`).

**Writing** (`entries_set_of_not_mem`, `get?_set`). A new key goes to the end.

**Building** (`entries_ofList`, `entries_setAll`). Setting entries under distinct new keys, one
after the other, appends them as they are.
-/

namespace CrudSchema

namespace Entries

variable {κ α : Type} [DecidableEq κ]

theorem set_append_of_not_mem {key : κ} {value : α} {l₁ l₂ : List (κ × α)}
    (h : key ∉ l₁.map Prod.fst) : set key value (l₁ ++ l₂) = l₁ ++ set key value l₂ := by
  induction l₁ with
  | nil => rfl
  | cons e rest ih =>
    obtain ⟨k, v⟩ := e
    simp only [List.map_cons, List.mem_cons, not_or] at h
    rw [List.cons_append, set, if_neg (Ne.symm h.1), ih h.2, List.cons_append]

theorem set_of_not_mem {key : κ} {value : α} {l : List (κ × α)} (h : key ∉ l.map Prod.fst) :
    set key value l = l ++ [(key, value)] := by
  have happend : set key value (l ++ []) = l ++ set key value [] := set_append_of_not_mem h
  simpa [set] using happend

theorem mem_of_mem_set {key : κ} {value : α} {l : List (κ × α)} {e : κ × α}
    (h : e ∈ set key value l) : e ∈ l ∨ e = (key, value) := by
  induction l with
  | nil => exact .inr (List.mem_singleton.1 h)
  | cons first rest ih =>
    obtain ⟨k, v⟩ := first
    rw [set] at h
    split at h
    next hk =>
      rcases List.mem_cons.1 h with rfl | h
      · exact .inr (by rw [hk])
      · exact .inl (List.mem_cons_of_mem _ h)
    next =>
      rcases List.mem_cons.1 h with rfl | h
      · exact .inl (List.mem_cons_self ..)
      · exact (ih h).imp_left (List.mem_cons_of_mem _)

theorem lookup_set (key : κ) (value : α) (l : List (κ × α)) (k : κ) :
    (set key value l).lookup k = if k = key then some value else l.lookup k := by
  induction l with
  | nil => by_cases h : k = key <;> simp [set, h]
  | cons e rest ih =>
    obtain ⟨k', v⟩ := e
    rw [set]
    split
    next hk' =>
      subst hk'
      by_cases hk : k = k'
      · simp [hk]
      · have hb : (k == k') = false := beq_eq_false_iff_ne.2 hk
        simp [List.lookup_cons, hb, hk]
    next hk' =>
      by_cases hk : k = k'
      · simp [hk, hk']
      · have hb : (k == k') = false := beq_eq_false_iff_ne.2 hk
        simp [List.lookup_cons, hb, ih]

theorem lookup_map_snd {β : Type} (f : α → β) (l : List (κ × α)) (key : κ) :
    (l.map fun e => (e.1, f e.2)).lookup key = (l.lookup key).map f := by
  induction l with
  | nil => rfl
  | cons e rest ih =>
    rw [List.map_cons, List.lookup_cons, List.lookup_cons, ih]
    cases key == e.1 <;> rfl

theorem lookup_eq_some_iff {l : List (κ × α)} (h : (l.map Prod.fst).Nodup) {key : κ} {value : α} :
    l.lookup key = some value ↔ (key, value) ∈ l := by
  induction l with
  | nil => simp
  | cons e rest ih =>
    obtain ⟨k, v⟩ := e
    simp only [List.map_cons, List.nodup_cons] at h
    rw [List.lookup_cons, List.mem_cons, Prod.mk.injEq]
    by_cases hk : key = k
    · subst hk
      have hrest : (key, value) ∉ rest := fun hm => h.1 (List.mem_map.2 ⟨_, hm, rfl⟩)
      simp [hrest, eq_comm]
    · have hb : (key == k) = false := beq_eq_false_iff_ne.2 hk
      simp [hb, hk, ih h.2]

end Entries

namespace OrderedMap

variable {κ α β : Type}

theorem nodup_keys (m : OrderedMap κ α) : m.keys.Nodup := m.nodup

theorem keys_mapValues (f : α → β) (m : OrderedMap κ α) : (m.mapValues f).keys = m.keys := by
  rw [keys, mapValues, List.map_map]
  rfl

theorem mem_keys_of_mem_entries {m : OrderedMap κ α} {e : κ × α} (h : e ∈ m.entries) :
    e.1 ∈ m.keys :=
  List.mem_map.2 ⟨e, h, rfl⟩

theorem mem_values {m : OrderedMap κ α} {value : α} :
    value ∈ m.values ↔ ∃ key, (key, value) ∈ m.entries := by
  simp [values]

theorem isEmpty_eq_true_iff {m : OrderedMap κ α} : m.isEmpty = true ↔ m.entries = [] :=
  List.isEmpty_iff

theorem isEmpty_eq_false_iff {m : OrderedMap κ α} : m.isEmpty = false ↔ m.entries ≠ [] :=
  List.isEmpty_eq_false_iff

theorem keys_eq_map_values {m : OrderedMap κ α} {f : α → κ}
    (h : ∀ e ∈ m.entries, e.1 = f e.2) : m.keys = m.values.map f := by
  rw [keys, values, List.map_map]
  exact List.map_congr_left fun e he => by rw [Function.comp_apply, h e he]

/-- Where all stand under their own names, they do so with more of their kind behind them. -/
theorem named_of_append {m m' : OrderedMap κ α} {f : α → κ} {more : List α}
    (hentries : m'.entries = m.entries ++ more.map fun a => (f a, a))
    (h : ∀ e ∈ m.entries, e.1 = f e.2) : ∀ e ∈ m'.entries, e.1 = f e.2 := by
  rw [hentries, List.forall_mem_append, List.forall_mem_map]
  exact ⟨h, fun _ _ => rfl⟩

variable [DecidableEq κ]

/-! ## Reading -/

theorem get?_eq_some_iff {m : OrderedMap κ α} {key : κ} {value : α} :
    m.get? key = some value ↔ (key, value) ∈ m.entries :=
  Entries.lookup_eq_some_iff m.nodup

theorem get?_eq_none_iff {m : OrderedMap κ α} {key : κ} : m.get? key = none ↔ key ∉ m.keys := by
  rw [get?, List.lookup_eq_none_iff, keys, List.mem_map]
  constructor
  · rintro h ⟨e, he, rfl⟩
    simpa using h e he
  · intro h e he
    simpa using fun hk : key = e.1 => h ⟨e, he, hk.symm⟩

/-- In a map where everything stands under its own name, a value is found by its name. -/
theorem get?_of_mem_values {m : OrderedMap κ α} {f : α → κ} (h : ∀ e ∈ m.entries, e.1 = f e.2)
    {value : α} (hvalue : value ∈ m.values) : m.get? (f value) = some value := by
  obtain ⟨key, hentry⟩ := mem_values.1 hvalue
  obtain rfl : key = f value := h _ hentry
  exact get?_eq_some_iff.2 hentry

theorem get?_mapValues (f : α → β) (m : OrderedMap κ α) (key : κ) :
    (m.mapValues f).get? key = (m.get? key).map f :=
  Entries.lookup_map_snd f m.entries key

/-- The entries of a map, read key by key. -/
theorem entries_eq_filterMap (m : OrderedMap κ α) :
    m.entries = m.keys.filterMap fun key => (m.get? key).map (Prod.mk key) := by
  have hentry : ∀ e ∈ m.entries, (m.get? e.1).map (Prod.mk e.1) = some e := fun e he => by
    rw [get?_eq_some_iff.2 he, Option.map_some]
  rw [keys, List.filterMap_map]
  exact (List.filterMap_some.symm.trans (List.filterMap_congr hentry).symm)

/-- Maps are equal if they hold the same under the same keys in the same order. -/
theorem eq_of_get? {m₁ m₂ : OrderedMap κ α} (hkeys : m₁.keys = m₂.keys)
    (hget : ∀ key, m₁.get? key = m₂.get? key) : m₁ = m₂ := by
  apply ext
  rw [m₁.entries_eq_filterMap, m₂.entries_eq_filterMap, hkeys]
  simp only [hget]

/-- The maps hold the same under the same keys, in whatever order. -/
def Agrees (m₁ m₂ : OrderedMap κ α) : Prop := ∀ key, m₁.get? key = m₂.get? key

/-- What the first map holds under a key the second holds there too. -/
def Within (m₁ m₂ : OrderedMap κ α) : Prop :=
  ∀ key value, m₁.get? key = some value → m₂.get? key = some value

theorem within_of_subset {m₁ m₂ : OrderedMap κ α} (h : m₁.entries ⊆ m₂.entries) :
    m₁.Within m₂ := by
  intro key value hvalue
  rw [get?_eq_some_iff] at hvalue ⊢
  exact h hvalue

/-- Where every value tells its key, a map with some of the values is within the other. -/
theorem within_of_values {m₁ m₂ : OrderedMap κ α} {f : α → κ} {l₁ l₂ : List α}
    (h₁ : m₁.entries = l₁.map fun value => (f value, value))
    (h₂ : m₂.entries = l₂.map fun value => (f value, value)) (h : l₁ ⊆ l₂) : m₁.Within m₂ := by
  apply within_of_subset
  rw [h₁, h₂]
  exact List.map_subset _ h

/-- Where every value tells its key, maps with the same values agree. -/
theorem agrees_of_mem_iff {m₁ m₂ : OrderedMap κ α} {f : α → κ} {l₁ l₂ : List α}
    (h₁ : m₁.entries = l₁.map fun value => (f value, value))
    (h₂ : m₂.entries = l₂.map fun value => (f value, value))
    (h : ∀ value, value ∈ l₁ ↔ value ∈ l₂) : m₁.Agrees m₂ := by
  have hsub := within_of_values h₁ h₂ fun value => (h value).1
  have hsuper := within_of_values h₂ h₁ fun value => (h value).2
  intro key
  ext value
  exact ⟨hsub key value, hsuper key value⟩

theorem contains_eq_true_iff {m : OrderedMap κ α} {key : κ} :
    m.contains key = true ↔ key ∈ m.keys := by
  simp [contains]

theorem contains_eq_false_iff {m : OrderedMap κ α} {key : κ} :
    m.contains key = false ↔ key ∉ m.keys := by
  rw [← contains_eq_true_iff, Bool.not_eq_true]

/-! ## Writing -/

theorem entries_set_of_not_mem {m : OrderedMap κ α} {key : κ} {value : α} (h : key ∉ m.keys) :
    (m.set key value).entries = m.entries ++ [(key, value)] :=
  Entries.set_of_not_mem h

theorem get?_set (m : OrderedMap κ α) (key : κ) (value : α) (k : κ) :
    (m.set key value).get? k = if k = key then some value else m.get? k :=
  Entries.lookup_set key value m.entries k

/-! ## Building -/

/-- Set entries one after the other. -/
def setAll (m : OrderedMap κ α) (l : List (κ × α)) : OrderedMap κ α :=
  l.foldl (fun m e => m.set e.1 e.2) m

theorem ofList_eq_setAll (l : List (κ × α)) : ofList l = empty.setAll l := rfl

theorem entries_setAll {m : OrderedMap κ α} {l : List (κ × α)}
    (h : (m.keys ++ l.map Prod.fst).Nodup) : (m.setAll l).entries = m.entries ++ l := by
  induction l generalizing m with
  | nil => simp [setAll]
  | cons e rest ih =>
    have hfresh : e.1 ∉ m.keys := by
      intro hm
      exact (List.nodup_append.1 h).2.2 _ hm _ (by simp) rfl
    have hset : (m.set e.1 e.2).entries = m.entries ++ [e] := entries_set_of_not_mem hfresh
    have hkeys : (m.set e.1 e.2).keys = m.keys ++ [e.1] := by rw [keys_set, if_neg hfresh]
    have hrest := ih (m := m.set e.1 e.2) (by simpa [hkeys] using h)
    rw [show m.setAll (e :: rest) = (m.set e.1 e.2).setAll rest from rfl, hrest, hset]
    simp

theorem mem_keys_setAll {m : OrderedMap κ α} {l : List (κ × α)} {key : κ} :
    key ∈ (m.setAll l).keys ↔ key ∈ m.keys ∨ key ∈ l.map Prod.fst := by
  induction l generalizing m with
  | nil => simp [setAll]
  | cons e rest ih =>
    rw [show m.setAll (e :: rest) = (m.set e.1 e.2).setAll rest from rfl, ih, keys_set]
    by_cases he : e.1 ∈ m.keys
    · rw [if_pos he, List.map_cons, List.mem_cons]
      constructor
      · exact Or.imp_right .inr
      · rintro (h | rfl | h)
        · exact .inl h
        · exact .inl he
        · exact .inr h
    · rw [if_neg he, List.mem_append, List.mem_singleton, List.map_cons, List.mem_cons, or_assoc]

theorem mem_keys_ofList {l : List (κ × α)} {key : κ} :
    key ∈ (ofList l).keys ↔ key ∈ l.map Prod.fst := by
  rw [ofList_eq_setAll, mem_keys_setAll]
  simp [keys_empty]

theorem mem_of_mem_entries_setAll {m : OrderedMap κ α} {l : List (κ × α)} {e : κ × α}
    (h : e ∈ (m.setAll l).entries) : e ∈ m.entries ∨ e ∈ l := by
  induction l generalizing m with
  | nil => exact .inl h
  | cons first rest ih =>
    rcases ih (m := m.set first.1 first.2) h with hset | hrest
    · refine (Entries.mem_of_mem_set hset).imp_right fun he => ?_
      rw [he]
      exact List.mem_cons_self ..
    · exact .inr (List.mem_cons_of_mem _ hrest)

theorem mem_of_mem_entries_ofList {l : List (κ × α)} {e : κ × α} (h : e ∈ (ofList l).entries) :
    e ∈ l := by
  rcases mem_of_mem_entries_setAll h with hempty | hl
  · cases hempty
  · exact hl

/-- Setting under a key that is not in front leaves the front as it is. -/
theorem entries_prefix_set {m m' : OrderedMap κ α} {key : κ} (h : m.entries <+: m'.entries)
    (hkey : key ∉ m.keys) (value : α) : m.entries <+: (m'.set key value).entries := by
  obtain ⟨more, hmore⟩ := h
  change m.entries <+: Entries.set key value m'.entries
  rw [← hmore, Entries.set_append_of_not_mem hkey]
  exact List.prefix_append _ _

theorem entries_prefix_setAll {m m' : OrderedMap κ α} {l : List (κ × α)}
    (h : m.entries <+: m'.entries) (hkeys : ∀ e ∈ l, e.1 ∉ m.keys) :
    m.entries <+: (m'.setAll l).entries := by
  induction l generalizing m' with
  | nil => exact h
  | cons first rest ih =>
    obtain ⟨hfirst, hrest⟩ := List.forall_mem_cons.1 hkeys
    exact ih (entries_prefix_set h hfirst first.2) hrest

theorem entries_ofList {l : List (κ × α)} (h : (l.map Prod.fst).Nodup) :
    (ofList l).entries = l := by
  rw [ofList_eq_setAll, entries_setAll (by simpa [keys_empty] using h)]
  rfl

theorem ofList_entries (m : OrderedMap κ α) : ofList m.entries = m :=
  ext (entries_ofList m.nodup)

end OrderedMap

end CrudSchema
