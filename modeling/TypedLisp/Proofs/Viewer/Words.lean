import Mathlib.Data.List.SplitBy
import TypedLisp.Viewer.Highlight

/-! Words and delimiters of a line.

A line is split wherever a delimiter stands on one side. So a text can be cut there
without any piece being cut, and every piece is one delimiter or a word that goes
from delimiter to delimiter.
-/

set_option autoImplicit false

namespace TypedLisp.Highlight

def joined (first second : Char) : Bool :=
  !isDelimiter first && !isDelimiter second

variable {before word after : List Char}

theorem joined_eq_false_iff {first second : Char} :
    joined first second = false ↔ isDelimiter first ∨ isDelimiter second := by
  simp [joined, imp_iff_or_not, or_comm]

theorem isChain_joined (plain : ∀ character ∈ word, isDelimiter character = false) :
    word.IsChain fun first second => joined first second := by
  refine List.Pairwise.isChain (List.pairwise_of_forall_mem_list fun first listed second listed' => ?_)
  simp [joined, plain first listed, plain second listed']

theorem cases_of_isChain {piece : List Char} (nonempty : piece ≠ [])
    (chain : piece.IsChain fun first second => joined first second) :
    (∃ delimiter, isDelimiter delimiter ∧ piece = [delimiter]) ∨
      ∀ character ∈ piece, isDelimiter character = false := by
  induction piece with
  | nil => exact absurd rfl nonempty
  | cons first rest ih =>
    cases rest with
    | nil =>
      cases delimiter : isDelimiter first with
      | true => exact .inl ⟨first, delimiter, rfl⟩
      | false => exact .inr (List.forall_mem_singleton.mpr delimiter)
    | cons second rest =>
      obtain ⟨together, chain⟩ := List.isChain_cons_cons.mp chain
      simp only [joined, Bool.and_eq_true, Bool.not_eq_true'] at together
      rcases ih (List.cons_ne_nil second rest) chain with ⟨delimiter, stands, same⟩ | plain
      · cases same
        simp [stands] at together
      · exact .inr (List.forall_mem_cons.mpr ⟨together.1, plain⟩)

/-! ## Pieces -/

theorem pieces_eq_splitBy (line : List Char) : pieces line = line.splitBy joined := by
  fun_induction pieces line with
  | case1 => rfl
  | case2 first rest delimiter ih =>
    have apart : ∀ last ∈ [first].getLast?, ∀ next ∈ rest.head?, joined last next = false := by
      rintro last ⟨⟩ next -
      exact joined_eq_false_iff.mpr (.inl delimiter)
    have split : first :: rest = [first] ++ rest := rfl
    rw [ih, split, List.splitBy_append apart]
    rfl
  | case3 first rest word ih =>
    -- The word is joined throughout, and is apart from what follows since a delimiter stopped it.
    let whole := first :: rest.takeWhile (!isDelimiter ·)
    have plain : ∀ character ∈ whole, isDelimiter character = false := by
      have others := List.all_eq_true.mp (List.all_takeWhile (l := rest) (p := (!isDelimiter ·)))
      exact List.forall_mem_cons.mpr ⟨by simpa using word, by simpa using others⟩
    have apart : ∀ last ∈ whole.getLast?, ∀ next ∈ (rest.dropWhile (!isDelimiter ·)).head?,
        joined last next = false := by
      intro last _ next starts
      have stops := List.head?_dropWhile_not (!isDelimiter ·) rest
      rw [starts] at stops
      exact joined_eq_false_iff.mpr (.inr (by simpa using stops))
    have split : first :: rest = whole ++ rest.dropWhile (!isDelimiter ·) := by simp [whole]
    rw [ih, split, List.splitBy_append apart,
      List.splitBy_of_isChain (List.cons_ne_nil _ _) (isChain_joined plain)]
    rfl

/-- A cut beside a delimiter cuts no piece. -/
theorem pieces_append
    (apart : ∀ last ∈ before.getLast?, ∀ first ∈ after.head?, isDelimiter last ∨ isDelimiter first) :
    pieces (before ++ after) = pieces before ++ pieces after := by
  simp only [pieces_eq_splitBy]
  exact List.splitBy_append fun last ends first starts =>
    joined_eq_false_iff.mpr (apart last ends first starts)

theorem pieces_of_plain (nonempty : word ≠ [])
    (plain : ∀ character ∈ word, isDelimiter character = false) : pieces word = [word] := by
  rw [pieces_eq_splitBy, List.splitBy_of_isChain nonempty (isChain_joined plain)]

theorem pieces_of_delimiter {delimiter : Char} (stands : isDelimiter delimiter) :
    pieces [delimiter] = [[delimiter]] := by
  simp [pieces, stands]

/-- Delimiters, or the ends of a line, stand on both sides. -/
structure Delimited (before after : List Char) : Prop where
  left : ∀ last ∈ before.getLast?, isDelimiter last
  right : ∀ first ∈ after.head?, isDelimiter first

theorem apart_of_pieces {line : List Char} {before after : List (List Char)}
    (split : pieces line = before ++ after) :
    ∀ last ∈ before.flatten.getLast?, ∀ first ∈ after.flatten.head?,
      isDelimiter last ∨ isDelimiter first := by
  intro last ends first starts
  have chain := List.isChain_getLast_head_splitBy joined line
  rw [← pieces_eq_splitBy, split, List.isChain_append] at chain
  -- Neighbouring pieces are apart at their ends, which are the ends of the two sides: no piece is
  -- empty.
  rcases List.eq_nil_or_concat before with rfl | ⟨earlier, left, rfl⟩
  · cases ends
  · cases after with
    | nil => cases starts
    | cons right later =>
      obtain ⟨filled, filled', apart⟩ := chain.2.2 left (by simp) right rfl
      rw [List.concat_eq_append, List.flatten_append, List.flatten_singleton,
        List.getLast?_append_of_ne_nil _ filled] at ends
      rw [List.flatten_cons, List.head?_append_of_ne_nil _ filled'] at starts
      rwa [List.getLast_of_mem_getLast? ends, List.head_of_mem_head? starts, joined_eq_false_iff]
        at apart

theorem cases_piece {line piece : List Char} {before after : List (List Char)}
    (split : pieces line = before ++ piece :: after) :
    (∃ delimiter, isDelimiter delimiter ∧ piece = [delimiter]) ∨
      (piece ≠ [] ∧ (∀ character ∈ piece, isDelimiter character = false) ∧
        Delimited before.flatten after.flatten) := by
  have member : piece ∈ pieces line := split ▸ List.mem_append_right _ List.mem_cons_self
  have nonempty := ne_nil_of_mem_pieces member
  have chain := List.isChain_of_mem_splitBy (pieces_eq_splitBy line ▸ member)
  rcases cases_of_isChain nonempty chain with delimiter | plain
  · exact .inl delimiter
  · refine .inr ⟨nonempty, plain, fun last ends => ?_, fun first starts => ?_⟩
    · have starts : piece.head nonempty ∈ (piece :: after).flatten.head? := by
        rw [List.flatten_cons, List.head?_append_of_ne_nil _ nonempty]
        exact List.head_mem_head? nonempty
      simpa [plain _ (List.head_mem nonempty)] using apart_of_pieces split last ends _ starts
    · have ends : piece.getLast nonempty ∈ (before ++ [piece]).flatten.getLast? := by
        rw [List.flatten_append, List.flatten_singleton, List.getLast?_append_of_ne_nil _ nonempty]
        exact List.getLast_mem_getLast? nonempty
      rw [List.append_cons] at split
      simpa [plain _ (List.getLast_mem nonempty)] using apart_of_pieces split _ ends first starts

/-! ## Spans -/

def styleOfDelimiter (delimiter : Char) : Style :=
  if delimiter = '(' ∨ delimiter = ')' then .colored Theme.bracket else .plain

theorem styleOfPiece_of_delimiter {delimiter : Char} (stands : isDelimiter delimiter) :
    styleOfPiece [delimiter] = styleOfDelimiter delimiter := by
  unfold styleOfPiece styleOfDelimiter
  split <;> simp_all

theorem styleOfPiece_of_plain (nonempty : word ≠ [])
    (plain : ∀ character ∈ word, isDelimiter character = false) :
    styleOfPiece word = styleOfWord word := by
  unfold styleOfPiece
  split
  · simp [isDelimiter] at plain
  · simp [isDelimiter] at plain
  · simp [plain _ List.mem_cons_self]
  · exact absurd rfl nonempty

theorem spans_of_delimiter {delimiter : Char} (stands : isDelimiter delimiter) :
    spans [delimiter] = [⟨String.ofList [delimiter], styleOfDelimiter delimiter⟩] := by
  rw [spans, pieces_of_delimiter stands, List.map_singleton, styleOfPiece_of_delimiter stands]

theorem spans_of_plain (nonempty : word ≠ [])
    (plain : ∀ character ∈ word, isDelimiter character = false) :
    spans word = [⟨String.ofList word, styleOfWord word⟩] := by
  rw [spans, pieces_of_plain nonempty plain, List.map_singleton, styleOfPiece_of_plain nonempty plain]

theorem spans_append
    (apart : ∀ last ∈ before.getLast?, ∀ first ∈ after.head?, isDelimiter last ∨ isDelimiter first) :
    spans (before ++ after) = spans before ++ spans after := by
  simp only [spans, pieces_append apart, List.map_append]

theorem spans_append_delimiter {delimiter : Char} (stands : isDelimiter delimiter) :
    spans (before ++ [delimiter]) =
      spans before ++ [⟨String.ofList [delimiter], styleOfDelimiter delimiter⟩] := by
  rw [spans_append, spans_of_delimiter stands]
  rintro _ _ _ ⟨⟩
  exact .inr stands

theorem lineText_spans (line : List Char) : lineText (spans line) = String.ofList line := by
  rw [← String.toList_inj]
  simp [lineText, spans, String.toList_join, List.flatMap_map, flatten_pieces]

end TypedLisp.Highlight
