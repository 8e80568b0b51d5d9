/-!
# Maps in order of first insertion

**The map** (`OrderedMap`). A list of entries in which no key occurs twice. Setting a key that is
present replaces its value where it stands; a new key goes to the end. Whatever the library shows
in order (declarations, derived inputs, fields of an input, operations, files) is such a map; most
are keyed by name (`NameMap`).

**The view** (`get?`, `keys`). Two maps are told apart by their entries alone, and `keys_set`
says what setting does to the keys: nothing when the key is there, one more at the end when it is
not.
-/

namespace CrudSchema

/-! ## Lists of entries -/

namespace Entries

variable {κ α : Type} [DecidableEq κ]

/-- Replace the value at the key, or append the key with it. -/
def set (key : κ) (value : α) : List (κ × α) → List (κ × α)
  | [] => [(key, value)]
  | (k, v) :: rest => if k = key then (k, value) :: rest else (k, v) :: set key value rest

theorem map_fst_set (key : κ) (value : α) (l : List (κ × α)) :
    (set key value l).map Prod.fst =
      if key ∈ l.map Prod.fst then l.map Prod.fst else l.map Prod.fst ++ [key] := by
  induction l with
  | nil => simp [set]
  | cons e rest ih =>
    obtain ⟨k, v⟩ := e
    by_cases h : k = key
    · simp [set, h]
    · have h' : ¬ key = k := fun e => h e.symm
      simp only [set, h, if_false, List.map_cons, List.mem_cons, h', false_or, ih]
      split <;> simp

theorem nodup_set {key : κ} {value : α} {l : List (κ × α)}
    (h : (l.map Prod.fst).Nodup) : ((set key value l).map Prod.fst).Nodup := by
  rw [map_fst_set]
  split
  · exact h
  · next hn =>
    rw [List.nodup_append]
    exact ⟨h, by simp, fun a ha b hb => by simp at hb; rintro rfl; exact hn (hb ▸ ha)⟩

end Entries

/-! ## The map -/

/-- Entries under distinct keys, in order. -/
structure OrderedMap (κ α : Type) where
  entries : List (κ × α)
  nodup : (entries.map Prod.fst).Nodup

/-- A map from names. -/
abbrev NameMap := OrderedMap String

namespace OrderedMap

variable {κ α β : Type}

@[ext]
theorem ext {m₁ m₂ : OrderedMap κ α} (h : m₁.entries = m₂.entries) : m₁ = m₂ := by
  cases m₁; cases m₂; cases h; rfl

instance [DecidableEq κ] [DecidableEq α] : DecidableEq (OrderedMap κ α) := fun m₁ m₂ =>
  if h : m₁.entries = m₂.entries then isTrue (ext h) else isFalse fun e => h (e ▸ rfl)

def empty : OrderedMap κ α := ⟨[], by simp⟩

instance : Inhabited (OrderedMap κ α) := ⟨empty⟩

def keys (m : OrderedMap κ α) : List κ := m.entries.map Prod.fst

def values (m : OrderedMap κ α) : List α := m.entries.map Prod.snd

def size (m : OrderedMap κ α) : Nat := m.entries.length

def isEmpty (m : OrderedMap κ α) : Bool := m.entries.isEmpty

/-- Change every value and keep the keys. -/
def mapValues (f : α → β) (m : OrderedMap κ α) : OrderedMap κ β :=
  ⟨m.entries.map fun e => (e.1, f e.2), by
    simpa [List.map_map, Function.comp_def] using m.nodup⟩

theorem keys_empty : (empty : OrderedMap κ α).keys = [] := rfl

variable [DecidableEq κ]

/-- The value under a key. -/
def get? (m : OrderedMap κ α) (key : κ) : Option α := m.entries.lookup key

def contains (m : OrderedMap κ α) (key : κ) : Bool := m.keys.contains key

/-- Replace the value under a key where it stands, or append it. -/
def set (m : OrderedMap κ α) (key : κ) (value : α) : OrderedMap κ α :=
  ⟨Entries.set key value m.entries, Entries.nodup_set m.nodup⟩

/-- The map a list of entries builds when set one after the other. -/
def ofList (l : List (κ × α)) : OrderedMap κ α :=
  l.foldl (fun m e => m.set e.1 e.2) empty

theorem keys_set (m : OrderedMap κ α) (key : κ) (value : α) :
    (m.set key value).keys = if key ∈ m.keys then m.keys else m.keys ++ [key] :=
  Entries.map_fst_set key value m.entries

end OrderedMap

end CrudSchema
