/-!
# Texts cut at a separator

**Cutting** (`split`). The pieces of a text between the places where a character stands. There is
one piece more than there are such places, and none of the pieces holds the character.

**Joining** (`join`). The way back: pieces with the character between them.
-/

namespace CrudSchema.Text

/-- The pieces of a text between the separators. -/
def split (separator : Char) : List Char → List (List Char)
  | [] => [[]]
  | c :: rest =>
    if c = separator then [] :: split separator rest
    else match split separator rest with
      | [] => [[c]]
      | piece :: more => (c :: piece) :: more

/-- Pieces with a separator between them. -/
def join (separator : Char) : List (List Char) → List Char
  | [] => []
  | [piece] => piece
  | piece :: more => piece ++ separator :: join separator more

theorem split_ne_nil (separator : Char) (cs : List Char) : split separator cs ≠ [] := by
  cases cs with
  | nil => simp [split]
  | cons c rest =>
    simp only [split]
    split
    · simp
    · split <;> simp

theorem separator_not_mem_of_mem_split {separator : Char} {cs piece : List Char}
    (h : piece ∈ split separator cs) : separator ∉ piece := by
  induction cs generalizing piece with
  | nil => simp_all [split]
  | cons c rest ih =>
    simp only [split] at h
    split at h
    · rcases List.mem_cons.1 h with rfl | h
      · simp
      · exact ih h
    · next hc =>
      split at h
      · next he => exact absurd he (split_ne_nil separator rest)
      · next first more he =>
        rcases List.mem_cons.1 h with rfl | h
        · have := ih (he ▸ List.mem_cons_self)
          simp [this, Ne.symm hc]
        · exact ih (he ▸ List.mem_cons_of_mem _ h)

end CrudSchema.Text
