import TypedLisp.Text.Lines

/-! Texts put together from pieces, and split again.

Pieces without the separator are found as they were, whether the separator stands
between them or at the end of each. So a text of lines has these lines, and what
stands anywhere in a text is within the line that the newlines before it tell.
-/

set_option autoImplicit false

namespace TypedLisp.Text

variable {separator : Char} {piece : List Char}

theorem split_append_cons (plain : separator ∉ piece) (rest : List Char) :
    split separator (piece ++ separator :: rest) = piece :: split separator rest := by
  induction piece with
  | nil => rw [List.nil_append, split, if_pos rfl]
  | cons character piece ih =>
    rw [List.mem_cons, not_or] at plain
    obtain ⟨other, plain⟩ := plain
    rw [List.cons_append, split, if_neg (Ne.symm other), ih plain]

theorem split_of_not_mem (plain : separator ∉ piece) : split separator piece = [piece] := by
  induction piece with
  | nil => rfl
  | cons character piece ih =>
    rw [List.mem_cons, not_or] at plain
    obtain ⟨other, plain⟩ := plain
    rw [split, if_neg (Ne.symm other), ih plain]

theorem split_append_flatMap {pieces : List (List Char)} (plain : separator ∉ piece)
    (plains : ∀ piece ∈ pieces, separator ∉ piece) :
    split separator (piece ++ pieces.flatMap (separator :: ·)) = piece :: pieces := by
  induction pieces generalizing piece with
  | nil => rw [List.flatMap_nil, List.append_nil, split_of_not_mem plain]
  | cons next pieces ih =>
    obtain ⟨own, others⟩ := List.forall_mem_cons.mp plains
    rw [List.flatMap_cons, List.cons_append, split_append_cons plain, ih own others]

theorem split_flatMap_append_rest {pieces : List (List Char)}
    (plains : ∀ piece ∈ pieces, separator ∉ piece) (rest : List Char) :
    split separator (pieces.flatMap (· ++ [separator]) ++ rest) = pieces ++ split separator rest := by
  induction pieces with
  | nil => rfl
  | cons piece pieces ih =>
    obtain ⟨own, others⟩ := List.forall_mem_cons.mp plains
    rw [List.flatMap_cons, List.append_assoc, List.append_assoc, List.singleton_append,
      split_append_cons own, ih others]
    rfl

theorem split_flatMap_append {pieces : List (List Char)}
    (plains : ∀ piece ∈ pieces, separator ∉ piece) :
    split separator (pieces.flatMap (· ++ [separator])) = pieces ++ [[]] := by
  have split := split_flatMap_append_rest plains []
  rwa [List.append_nil] at split

theorem replicate_append_inj {character : Char} {text other : List Char}
    (starts : text.head? ≠ some character) (starts' : other.head? ≠ some character) :
    {count count' : Nat} →
      List.replicate count character ++ text = List.replicate count' character ++ other →
      count = count' ∧ text = other
  | 0, 0, same => ⟨rfl, same⟩
  | 0, _ + 1, same => absurd (congrArg List.head? same) starts
  | _ + 1, 0, same => absurd (congrArg List.head? same.symm) starts'
  | count + 1, count' + 1, same => by
      obtain ⟨rfl, rest⟩ := replicate_append_inj starts starts' (List.cons.inj same).2
      exact ⟨rfl, rest⟩

theorem dropReturn_of_not_mem (plain : '\r' ∉ piece) : dropReturn piece = piece :=
  if_neg fun last => plain (List.mem_of_getLast? last)

/-- The lines of a text are its pieces, but for an empty one after the last newline. -/
theorem lines_flatMap_append_rest {pieces : List (List Char)} {start : List Char}
    (plains : ∀ piece ∈ pieces, '\n' ∉ piece) (plain : '\n' ∉ start) :
    lines (pieces.flatMap (· ++ ['\n']) ++ start) =
      pieces.map dropReturn ++ if start = [] then [] else [start] := by
  rw [lines, split_flatMap_append_rest plains, split_of_not_mem plain, List.dropLast_concat,
    List.getLast?_concat]
  split <;> simp_all

theorem lines_flatMap_append {pieces : List (List Char)} (plains : ∀ piece ∈ pieces, '\n' ∉ piece)
    (unreturned : ∀ piece ∈ pieces, '\r' ∉ piece) :
    lines (pieces.flatMap (· ++ ['\n'])) = pieces := by
  have kept : pieces.map dropReturn = pieces.map id :=
    List.map_congr_left fun piece member => dropReturn_of_not_mem (unreturned piece member)
  have lines := lines_flatMap_append_rest plains (List.not_mem_nil (a := '\n'))
  rwa [List.append_nil, if_pos rfl, List.append_nil, kept, List.map_id] at lines

theorem isDigit_of_mem_toString {number : Nat} {character : Char}
    (member : character ∈ (toString number).toList) : character.isDigit := by
  rw [Nat.toString_eq_repr, Nat.repr_eq_ofList_toDigits, String.toList_ofList] at member
  exact Nat.isDigit_of_mem_toDigits (b := 10) (by decide) (by decide) member

/-! ## A place in a text -/

theorem exists_flatMap (separator : Char) (text : List Char) :
    ∃ (pieces : List (List Char)) (start : List Char),
      text = pieces.flatMap (· ++ [separator]) ++ start ∧
      (∀ piece ∈ pieces, separator ∉ piece) ∧ separator ∉ start := by
  induction text with
  | nil => exact ⟨[], [], rfl, List.forall_mem_nil _, List.not_mem_nil⟩
  | cons character text ih =>
    obtain ⟨pieces, start, rfl, plains, plain⟩ := ih
    by_cases same : character = separator
    · refine ⟨[] :: pieces, start, ?_, List.forall_mem_cons.mpr ⟨List.not_mem_nil, plains⟩, plain⟩
      simp [same]
    · have other {piece : List Char} (plain : separator ∉ piece) : separator ∉ character :: piece :=
        List.not_mem_cons_of_ne_of_not_mem (Ne.symm same) plain
      cases pieces with
      | nil => exact ⟨[], character :: start, rfl, plains, other plain⟩
      | cons first pieces =>
        obtain ⟨own, plains⟩ := List.forall_mem_cons.mp plains
        exact ⟨(character :: first) :: pieces, start, rfl,
          List.forall_mem_cons.mpr ⟨other own, plains⟩, plain⟩

theorem count_flatMap {pieces : List (List Char)} (plains : ∀ piece ∈ pieces, separator ∉ piece) :
    (pieces.flatMap (· ++ [separator])).count separator = pieces.length := by
  induction pieces with
  | nil => rfl
  | cons piece pieces ih =>
    obtain ⟨own, others⟩ := List.forall_mem_cons.mp plains
    simp [List.count_append, List.count_eq_zero.mpr own, ih others]

theorem length_lines (text : List Char) :
    text.count '\n' ≤ (lines text).length ∧ (lines text).length ≤ text.count '\n' + 1 := by
  obtain ⟨pieces, start, rfl, plains, plain⟩ := exists_flatMap '\n' text
  rw [lines_flatMap_append_rest plains plain, List.count_append, count_flatMap plains,
    List.count_eq_zero.mpr plain, List.length_append, List.length_map]
  split <;> simp

theorem dropReturn_append (start finish : List Char) (nonempty : piece ≠ [])
    (plain : '\r' ∉ piece) :
    ∃ kept, kept <+: finish ∧ dropReturn (start ++ piece ++ finish) = start ++ piece ++ kept := by
  unfold dropReturn
  split
  next returns =>
    rcases List.eq_nil_or_concat finish with rfl | ⟨kept, last, rfl⟩
    · rw [List.append_nil, List.getLast?_append] at returns
      obtain ⟨first, last, rfl⟩ := (List.eq_nil_or_concat piece).resolve_left nonempty
      simp at returns plain
      simp_all
    · rw [List.concat_eq_append, ← List.append_assoc, List.dropLast_concat]
      exact ⟨kept, List.prefix_append .., rfl⟩
  next => exact ⟨finish, List.prefix_rfl, rfl⟩

/-- What stands in a text without an end of a line in it is within a line, which has as many lines
before it as the text before it has newlines. -/
theorem exists_line (before after : List Char) (nonempty : piece ≠ []) (noNewline : '\n' ∉ piece)
    (noReturn : '\r' ∉ piece) :
    ∃ above start finish, before = above ++ start ∧ (above = [] ∨ ['\n'] <:+ above) ∧ '\n' ∉ start ∧
      finish <+: after ∧
      (lines (before ++ piece ++ after))[before.count '\n']? = some (start ++ piece ++ finish) := by
  obtain ⟨pieces, start, rfl, plains, plain⟩ := exists_flatMap '\n' before
  obtain ⟨others, last, rfl, plains', plain'⟩ := exists_flatMap '\n' after
  have within : '\n' ∉ start ++ piece := fun member => (List.mem_append.mp member).elim plain noNewline
  have ends : pieces.flatMap (· ++ ['\n']) = [] ∨ ['\n'] <:+ pieces.flatMap (· ++ ['\n']) := by
    rcases List.eq_nil_or_concat pieces with rfl | ⟨earlier, piece, rfl⟩
    · exact .inl rfl
    · right
      simp [← List.append_assoc]
  rw [List.count_append, count_flatMap plains, List.count_eq_zero.mpr plain, Nat.add_zero]
  -- The line goes on to the next newline, or to the end of the text.
  cases others with
  | nil =>
    have joined : '\n' ∉ start ++ piece ++ last := fun member => (List.mem_append.mp member).elim within plain'
    have lines := lines_flatMap_append_rest plains joined
    refine ⟨_, start, last, rfl, ends, plain, List.prefix_rfl, ?_⟩
    simp only [List.flatMap_nil, List.nil_append, List.append_assoc] at lines ⊢
    rw [lines]
    simp [nonempty]
  | cons first others =>
    obtain ⟨own, plains'⟩ := List.forall_mem_cons.mp plains'
    have joined : '\n' ∉ start ++ piece ++ first := fun member => (List.mem_append.mp member).elim within own
    have all : ∀ line ∈ pieces ++ (start ++ piece ++ first) :: others, '\n' ∉ line :=
      List.forall_mem_append.mpr ⟨plains, List.forall_mem_cons.mpr ⟨joined, plains'⟩⟩
    have lines := lines_flatMap_append_rest all plain'
    obtain ⟨finish, kept, line⟩ := dropReturn_append start first nonempty noReturn
    refine ⟨_, start, finish, rfl, ends, plain, kept.trans ?_, ?_⟩
    · simp only [List.flatMap_cons, List.append_assoc]
      exact List.prefix_append ..
    · simp only [List.flatMap_append, List.flatMap_cons, List.append_assoc, List.map_append,
        List.map_cons] at lines line ⊢
      rw [lines, List.getElem?_append_right (by simp), List.length_map, Nat.sub_self, line]
      rfl

end TypedLisp.Text
