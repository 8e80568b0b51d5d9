import CrudSchema.Proofs.OrderedMap
import CrudSchema.Schema.Catalogue
import CrudSchema.Schema.Printer

/-!
# References as types of positions

A reference has the marks of its items inside and none of its own; a type of a schema has every mark
as a level of its own (`TypeRef.wrapped`). The innermost name is the same.

**Following names** (`Catalogue.wrap_eq_ok_iff`). A reference becomes such a type exactly if the
catalogue has its innermost name.

**Two notations** (`TypeRef.render_wrapped`). The type is written as the reference with its mark,
and so is a member of that type.
-/

namespace CrudSchema

open Schema

/-! ## Wrapped references -/

namespace TypeRef

/-- What a reference becomes, without a mark of its own. A missing one never becomes anything and
stands as a name. -/
def unmarked : TypeRef → WrappedType
  | .named n => .named n
  | .list item itemNullable => .list (.mark itemNullable item.unmarked)
  | .missing => .named "None"

/-- The type of a position that holds the reference with a mark. -/
def wrapped (type : TypeRef) (nullable : Bool) : WrappedType := .mark nullable type.unmarked

end TypeRef

def InputField.wrapped (f : InputField) : InputTypeField :=
  ⟨f.type.wrapped f.nullable, f.description⟩

namespace WrappedType

theorem innermost_mark (nullable : Bool) (type : WrappedType) :
    (mark nullable type).innermost = type.innermost := by
  cases nullable <;> rfl

theorem render_mark (nullable : Bool) (type : WrappedType) :
    (mark nullable type).render = type.render ++ if nullable then "" else "!" := by
  cases nullable with
  | true => exact (String.append_empty).symm
  | false => rfl

end WrappedType

/-! ## Names -/

namespace TypeRef

theorem innermost_wrapped {type : TypeRef} {n : String} (h : type.innermost? = some n)
    (nullable : Bool) : (type.wrapped nullable).innermost = n := by
  induction type generalizing nullable with
  | named m =>
    rw [wrapped, WrappedType.innermost_mark]
    exact Option.some.inj h
  | list item itemNullable ih =>
    rw [wrapped, WrappedType.innermost_mark]
    exact ih h itemNullable
  | missing => cases h

theorem innermost?_eq_wrapped {type : TypeRef} {n : String} (h : type.innermost? = some n)
    (nullable : Bool) : type.innermost? = some (type.wrapped nullable).innermost := by
  rw [innermost_wrapped h, h]

/-- Only a required reference to a name itself becomes a required name. -/
theorem eq_named_of_wrapped {type : TypeRef} {n target : String} {nullable : Bool}
    (hn : type.innermost? = some n) (h : type.wrapped nullable = .nonNull (.named target)) :
    type = .named target ∧ nullable = false := by
  cases nullable with
  | true => cases type <;> cases h
  | false =>
    cases type with
    | named m =>
      cases h
      exact ⟨rfl, rfl⟩
    | list item itemNullable => cases h
    | missing => cases hn

end TypeRef

/-- **A reference becomes the type of a position exactly if its name is in the catalogue.** -/
theorem Schema.Catalogue.wrap_eq_ok_iff {c : Catalogue} {type : TypeRef} {nullable : Bool}
    {w : WrappedType} : c.wrap type nullable = .ok w ↔
      (∃ n, type.innermost? = some n ∧ n ∈ c.keys) ∧ w = type.wrapped nullable := by
  induction type generalizing nullable w with
  | named m =>
    rw [wrap]
    split
    next hm =>
      rw [OrderedMap.contains_eq_true_iff] at hm
      constructor
      · intro h
        exact ⟨⟨m, rfl, hm⟩, (Except.ok.inj h).symm⟩
      · rintro ⟨-, rfl⟩
        rfl
    next hm =>
      constructor
      · intro h
        cases h
      · rintro ⟨⟨n, hn, hkey⟩, -⟩
        obtain rfl : m = n := Option.some.inj hn
        exact absurd (OrderedMap.contains_eq_true_iff.2 hkey) hm
  | list item itemNullable ih =>
    constructor
    · intro h
      rw [wrap] at h
      cases hitem : c.wrap item itemNullable with
      | error e =>
        rw [hitem] at h
        cases h
      | ok v =>
        obtain ⟨hname, rfl⟩ := ih.1 hitem
        rw [hitem] at h
        exact ⟨hname, (Except.ok.inj h).symm⟩
    · rintro ⟨hname, rfl⟩
      rw [wrap, ih.2 ⟨hname, rfl⟩]
      rfl
  | missing =>
    constructor
    · intro h
      cases h
    · rintro ⟨⟨n, hn, -⟩, -⟩
      cases hn

/-! ## Notation -/

namespace TypeRef

theorem render_unmarked (type : TypeRef) : type.unmarked.render = type.render := by
  induction type with
  | named n => rfl
  | list item itemNullable ih =>
    rw [unmarked, WrappedType.render, WrappedType.render_mark, ih, render]
    simp only [String.append_assoc]
  | missing => rfl

/-- **A type is written as the reference it comes from, with every mark in its place.** -/
theorem render_wrapped (type : TypeRef) (nullable : Bool) :
    (type.wrapped nullable).render = renderType type nullable := by
  rw [wrapped, WrappedType.render_mark, render_unmarked, renderType]

end TypeRef

/-- **The two notations agree on every reference that becomes the type of a position.** -/
theorem Schema.Catalogue.render_of_wrap {c : Catalogue} {type : TypeRef} {nullable : Bool}
    {w : WrappedType} (h : c.wrap type nullable = .ok w) : w.render = renderType type nullable := by
  rw [(wrap_eq_ok_iff.1 h).2, TypeRef.render_wrapped]

theorem Schema.printTyped_wrapped (name : String) (type : TypeRef) (nullable : Bool) :
    printTyped name (type.wrapped nullable) = renderTyped name type nullable := by
  rw [printTyped, TypeRef.render_wrapped, renderTyped]

end CrudSchema
