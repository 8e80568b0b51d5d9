import CrudSchema.Proofs.Naming
import CrudSchema.Schema.Catalogue

/-!
# Derived names are legal

**Names** (`IsName`). A letter or an underscore, then letters, digits and underscores. That is what
`checkName` looks for (`checkName_eq_ok_iff`).

**Public names** (`IsPublic`). Names that introspection does not keep: they do not begin with two
underscores. No type with such a name is reserved for introspection (`not_mem_introspectionTypes`).

**Derived names.** A name gives names, and a public name public ones, at every place where something
is derived: inputs, queries and mutations. Names are of ASCII, so lower case goes letter by letter
(`lower_of_isName`).
-/

namespace CrudSchema

open Schema

/-! ## Names -/

/-- A letter or an underscore, then letters, digits and underscores. -/
def IsName (n : String) : Prop :=
  ∃ first rest, n.toList = first :: rest ∧ isNameStart first = true ∧
    ∀ c ∈ rest, isNameContinue c = true

/-- A name that is not kept for introspection. -/
structure IsPublic (n : String) : Prop where
  isName : IsName n
  unreserved : ¬ "__".toList <+: n.toList

namespace Schema

theorem isNameContinue_of_isNameStart {c : Char} (h : isNameStart c = true) :
    isNameContinue c = true := by
  simp only [isNameStart, isNameContinue, Char.isAlphanum, Bool.or_eq_true] at h ⊢
  tauto

theorem checkName_eq_ok_iff {n : String} : checkName n = .ok () ↔ IsName n := by
  rw [checkName, IsName]
  rcases n.toList with _ | ⟨first, rest⟩
  · simp
  · have hmore : rest.all isNameContinue = true ↔ ∀ c ∈ rest, isNameContinue c = true :=
      List.all_eq_true
    by_cases hrest : rest.all isNameContinue = true
    · by_cases hfirst : isNameStart first = true
      · simpa [hfirst, hrest] using hmore.1 hrest
      · simp [hfirst, hrest]
    · simp [hrest, ← hmore]

theorem checkNames_eq_ok_iff {names : List String} :
    checkNames names = .ok () ↔ ∀ n ∈ names, IsName n := by
  induction names with
  | nil => simp [checkNames]
  | cons n rest ih =>
    rw [checkNames, List.forall_mem_cons, ← ih, ← checkName_eq_ok_iff]
    rcases checkName n with e | ⟨⟩ <;> simp [bind, Except.bind]

theorem isIntrospective_eq_false_iff {n : String} :
    isIntrospective n = false ↔ ¬ "__".toList <+: n.toList := by
  rw [← not_iff_not, Bool.not_eq_false, not_not, isIntrospective]
  split
  next rest h => simp [h]
  next h =>
    constructor
    · intro hf
      cases hf
    · rintro ⟨rest, hrest⟩
      exact absurd hrest.symm (h rest)

end Schema

instance (n : String) : Decidable (IsName n) :=
  decidable_of_iff (checkName n = .ok ()) checkName_eq_ok_iff

instance (n : String) : Decidable (IsPublic n) :=
  decidable_of_iff (IsName n ∧ ¬ "__".toList <+: n.toList)
    ⟨fun h => ⟨h.1, h.2⟩, fun h => ⟨h.isName, h.unreserved⟩⟩

namespace IsName

theorem all {n : String} (h : IsName n) : n.toList.all isNameContinue = true := by
  obtain ⟨first, rest, hn, hfirst, hrest⟩ := h
  rw [hn, List.all_eq_true]
  exact List.forall_mem_cons.2 ⟨isNameContinue_of_isNameStart hfirst, hrest⟩

theorem continues {n : String} (h : IsName n) {c : Char} (hc : c ∈ n.toList) :
    isNameContinue c = true :=
  List.all_eq_true.1 h.all c hc

theorem append {n a : String} (h : IsName n) (ha : a.toList.all isNameContinue = true) :
    IsName (n ++ a) := by
  obtain ⟨first, rest, hn, hfirst, hrest⟩ := h
  refine ⟨first, rest ++ a.toList, by rw [String.toList_append, hn, List.cons_append], hfirst, ?_⟩
  intro c hc
  exact (List.mem_append.1 hc).elim (hrest c) (List.all_eq_true.1 ha c)

end IsName

namespace IsPublic

/-- What is appended must not bring a second underscore. -/
theorem append {n a : String} (h : IsPublic n) (ha : a.toList.all isNameContinue = true)
    (hend : 2 ≤ n.toList.length ∨ a.toList.head? ≠ some '_') : IsPublic (n ++ a) := by
  refine ⟨h.isName.append ha, fun hbegin => h.unreserved ?_⟩
  obtain ⟨first, rest, hn, -⟩ := h.isName
  rw [String.toList_append, hn] at hbegin
  rw [hn] at hend ⊢
  rcases rest with _ | ⟨second, rest⟩
  · rcases ha' : a.toList with _ | ⟨c, more⟩
    · simp [ha'] at hbegin
    · simp [ha'] at hbegin hend
      exact absurd hbegin.2.symm hend
  · simpa using hbegin

theorem not_mem_introspectionTypes {n : String} (h : IsPublic n) : n ∉ introspectionTypes := by
  have hall : ∀ m ∈ introspectionTypes, "__".toList <+: m.toList := by decide
  exact fun hn => h.unreserved (hall n hn)

end IsPublic

/-! ## Lower case -/

theorem toNat_lt_of_isNameContinue {c : Char} (h : isNameContinue c = true) : c.toNat < 128 := by
  delta isNameContinue Char.isAlphanum Char.isAlpha Char.isUpper Char.isLower Char.isDigit at h
  simp only [Bool.or_eq_true, Bool.and_eq_true, decide_eq_true_eq, ge_iff_le,
    UInt32.le_iff_toNat_le] at h
  rw [Char.toNat]
  rcases h with ((⟨-, h⟩ | ⟨-, h⟩) | ⟨-, h⟩) | h
  · exact Nat.lt_of_le_of_lt h (by decide)
  · exact Nat.lt_of_le_of_lt h (by decide)
  · exact Nat.lt_of_le_of_lt h (by decide)
  · subst h
    decide

/-- What holds of all of ASCII holds of the characters of names. -/
theorem forall_isNameContinue {P : Char → Prop} (h : ∀ n < 128, P (Char.ofNat n)) {c : Char}
    (hc : isNameContinue c = true) : P c := by
  have := h c.toNat (toNat_lt_of_isNameContinue hc)
  rwa [Char.ofNat_toNat] at this

theorem Text.lowerAfter_of_ascii (before : List Char) {cs : List Char}
    (h : ∀ c ∈ cs, c.toNat < 128) : lowerAfter before cs = cs.map Char.toLower := by
  induction cs generalizing before with
  | nil => rfl
  | cons c rest ih =>
    obtain ⟨hc, hrest⟩ := List.forall_mem_cons.1 h
    have hsigma : c ≠ 'Σ' := by
      rintro rfl
      exact absurd hc (by decide)
    rw [lowerAfter, ih _ hrest, List.map_cons, lowerChar, if_pos hc]
    simp [hsigma]

theorem toList_lower_of_isName {n : String} (h : IsName n) :
    (Text.lower n).toList = n.toList.map Char.toLower := by
  rw [Text.lower, String.toList_ofList,
    Text.lowerAfter_of_ascii [] fun c hc => toNat_lt_of_isNameContinue (h.continues hc)]

theorem IsName.lower {n : String} (h : IsName n) : IsName (Text.lower n) := by
  obtain ⟨first, rest, hn, hfirst, hrest⟩ := id h
  have hstart : ∀ c, isNameContinue c = true → isNameStart c = true →
      isNameStart c.toLower = true := by
    intro c hc
    exact forall_isNameContinue (P := fun c => isNameStart c = true → isNameStart c.toLower = true)
      (by decide) hc
  have hcontinue : ∀ c, isNameContinue c = true → isNameContinue c.toLower = true := by
    intro c hc
    exact forall_isNameContinue
      (P := fun c => isNameContinue c = true → isNameContinue c.toLower = true) (by decide) hc hc
  refine ⟨first.toLower, rest.map Char.toLower, ?_, ?_, ?_⟩
  · rw [toList_lower_of_isName h, hn, List.map_cons]
  · exact hstart first (isNameContinue_of_isNameStart hfirst) hfirst
  · intro c hc
    obtain ⟨b, hb, rfl⟩ := List.mem_map.1 hc
    exact hcontinue b (hrest b hb)

theorem IsPublic.lower {n : String} (h : IsPublic n) : IsPublic (Text.lower n) := by
  refine ⟨h.isName.lower, fun hbegin => h.unreserved ?_⟩
  have hunderscore : ∀ c ∈ n.toList, c.toLower = '_' → c = '_' := by
    intro c hc
    exact forall_isNameContinue (P := fun c => c.toLower = '_' → c = '_') (by decide)
      (h.isName.continues hc)
  rw [toList_lower_of_isName h.isName] at hbegin
  rcases hn : n.toList with _ | ⟨first, _ | ⟨second, rest⟩⟩
  · simp [hn] at hbegin
  · simp [hn] at hbegin
  · rw [hn] at hbegin hunderscore
    simp only [List.mem_cons, forall_eq_or_imp] at hunderscore
    have hpair : '_' = first.toLower ∧ '_' = second.toLower := by simpa using hbegin
    simp [hunderscore.1 hpair.1.symm, hunderscore.2.1 hpair.2.symm]

/-! ## Derived names -/

namespace Naming

variable {t n : String}

theorem isName_of_mem_inputNames (h : IsName t) (hn : n ∈ inputNames t) : IsName n := by
  obtain ⟨f, rfl⟩ := mem_inputNames_iff.1 hn
  rw [f.name_eq_append]
  exact h.append (by cases f <;> decide)

theorem isPublic_of_mem_inputNames (h : IsPublic t) (hn : n ∈ inputNames t) : IsPublic n := by
  obtain ⟨f, rfl⟩ := mem_inputNames_iff.1 hn
  rw [f.name_eq_append]
  exact h.append (by cases f <;> decide) (.inr (by cases f <;> decide))

theorem isPublic_of_mem_familyNames {kind : ScalarKind} (hn : n ∈ familyNames kind) :
    IsPublic n := by
  have hall : ∀ m ∈ familyNames kind, IsPublic m := by cases kind <;> decide
  exact hall n hn

theorem isPublic_sortDirection : IsPublic sortDirection := by decide

theorem isName_of_mem_queryNames (h : IsName t) (hn : n ∈ queryNames t) : IsName n := by
  simp only [queryNames, List.mem_cons, List.not_mem_nil, or_false] at hn
  rcases hn with rfl | rfl
  · exact h.lower
  · exact h.lower.append (by decide)

theorem isPublic_of_mem_queryNames (h : IsPublic t) (hn : n ∈ queryNames t) : IsPublic n := by
  simp only [queryNames, List.mem_cons, List.not_mem_nil, or_false] at hn
  rcases hn with rfl | rfl
  · exact h.lower
  · exact h.lower.append (by decide) (.inr (by decide))

/-- A mutation begins with a word, so it is public whatever the type is called. -/
theorem isPublic_of_mem_mutationNames (h : IsName t) (hn : n ∈ mutationNames t) : IsPublic n := by
  obtain ⟨f, rfl⟩ := mem_mutationNames_iff.1 hn
  rw [f.name_eq_append]
  exact IsPublic.append (by cases f <;> decide) h.all (.inl (by cases f <;> decide))

end Naming

end CrudSchema
