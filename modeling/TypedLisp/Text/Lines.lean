/-! Splitting text at a separator, and into lines.

The pieces of a text, joined by the separator, are the text. Lines end at a
newline, which may follow a carriage return; a text that ends with a newline has
no empty line after it.
-/

set_option autoImplicit false

namespace TypedLisp.Text

/-- The pieces between separators, of which there is one more than separators. -/
def split (separator : Char) : List Char → List (List Char)
  | [] => [[]]
  | character :: rest =>
      if character = separator then [] :: split separator rest
      else
        match split separator rest with
        | [] => [[character]]
        | piece :: others => (character :: piece) :: others

theorem split_ne_nil (separator : Char) (text : List Char) : split separator text ≠ [] := by
  cases text with
  | nil => simp [split]
  | cons character rest =>
    unfold split
    split
    · simp
    · split <;> simp

theorem intercalate_split (separator : Char) (text : List Char) :
    [separator].intercalate (split separator text) = text := by
  induction text with
  | nil => rfl
  | cons character rest ih =>
    obtain ⟨piece, others, pieces⟩ := List.exists_cons_of_ne_nil (split_ne_nil separator rest)
    rw [pieces] at ih
    rw [split, pieces]
    by_cases same : character = separator
    · rw [if_pos same, List.intercalate_cons_cons, ih, same]
      rfl
    · rw [if_neg same]
      cases others with
      | nil => simpa using ih
      | cons next others =>
        rw [List.intercalate_cons_cons] at ih
        simp only [List.intercalate_cons_cons, List.cons_append, ih]

theorem not_mem_of_mem_split (separator : Char) (text : List Char) :
    ∀ piece ∈ split separator text, separator ∉ piece := by
  induction text with
  | nil => simp [split]
  | cons character rest ih =>
    unfold split
    split
    · simpa using ih
    next differ =>
      split
      · simpa using fun same => differ same.symm
      next piece others pieces =>
        rw [pieces] at ih
        intro part member
        rcases List.mem_cons.mp member with rfl | member
        · simpa using ⟨fun same => differ same.symm, ih piece (by simp)⟩
        · exact ih part (by simp [member])

/-- A line without the carriage return before its newline. -/
def dropReturn (line : List Char) : List Char :=
  if line.getLast? = some '\r' then line.dropLast else line

def lines (text : List Char) : List (List Char) :=
  let pieces := split '\n' text
  let unfinished := pieces.getLast?.filter (· ≠ [])
  pieces.dropLast.map dropReturn ++ unfinished.toList

end TypedLisp.Text
