import TypedLisp.Proofs.Lexing.Adequacy
import TypedLisp.Proofs.Lexing.Cutting
import TypedLisp.Proofs.Reading.Sequencing

/-! Where the tokens of a text stand in it.

Before a token is the text that the tokens before it are lexed from, and the line of
the token counts the newlines there. So no token is on a line before that of an
earlier one.
-/

set_option autoImplicit false

namespace TypedLisp

theorem Tiles.lines_rise {line line' : Nat} {text rest : List Char} {tokens : List Token}
    (tiles : Tiles line text tokens line' rest) :
    (tokens.map Token.line).Pairwise (· ≤ ·) ∧ ∀ token ∈ tokens, line ≤ token.line := by
  induction tiles with
  | done => exact ⟨.nil, List.forall_mem_nil _⟩
  | @token line _ blanks _ _ _ _ _ _ _ _ _ _ ih =>
    obtain ⟨rise, later⟩ := ih
    have further : line ≤ line + blanks.count '\n' := Nat.le_add_right ..
    refine ⟨List.pairwise_cons.mpr ⟨List.forall_mem_map.mpr later, rise⟩, ?_⟩
    exact List.forall_mem_cons.mpr ⟨further, fun token member => Nat.le_trans further (later token member)⟩

theorem tokenize_lines_rise {source : String} {tokens : List Token} (lexes : tokenize source = .ok tokens) :
    (tokens.map Token.line).Pairwise (· ≤ ·) := by
  obtain ⟨line, rest, tiles, -⟩ := tokenize_eq_ok_iff_tiles.mp lexes
  exact tiles.lines_rise.1

theorem Tiles.tokenize_append_blanks {text blanks : List Char} {tokens : List Token} {line : Nat}
    (tiles : Tiles 1 text tokens line []) (blank : AllBlank blanks) {before : String}
    (whole : before.toList = text ++ blanks) : tokenize before = .ok tokens := by
  have onward : Tiles 1 before.toList tokens line blanks := by
    rw [whole]
    cases blanks with
    | nil => rwa [List.append_nil]
    | cons first blanks =>
      exact tiles.onward (.inr ⟨first, blanks, rfl, blank first List.mem_cons_self⟩)
  exact tokenize_eq_ok_iff_tiles.mpr ⟨line, blanks, onward, blank⟩

/-- A token stands after the text that the tokens before it are lexed from. -/
theorem Tiles.place {source : String} {lead trail : List Token} {token : Token} {line : Nat}
    {rest : List Char} (tiles : Tiles 1 source.toList (lead ++ token :: trail) line rest) :
    ∃ before after, source = before ++ token.lexeme ++ after ∧ tokenize before = .ok lead ∧
      token.line = 1 + newlines before := by
  obtain ⟨middle, between, leads, tiles⟩ := tiles.cut
  obtain ⟨taken, whole⟩ := leads.exists_append
  rw [whole] at leads
  cases tiles with
  | @token _ _ blanks text lexeme after _ kind _ blank longest _ _ =>
    have alone := leads.alone
    have counted := alone.line_add_count
    have here : (String.ofList (taken ++ blanks)).toList = taken ++ blanks := String.toList_ofList
    refine ⟨.ofList (taken ++ blanks), .ofList after, ?_, alone.tokenize_append_blanks blank here, ?_⟩
    · rw [← String.toList_inj, whole, longest.split]
      simp
    · rw [List.count_nil] at counted
      show middle + blanks.count '\n' = _
      rw [newlines, here, List.count_append]
      omega

theorem place_of_token {source : String} {lead trail : List Token} {token : Token}
    (lexes : tokenize source = .ok (lead ++ token :: trail)) :
    ∃ before after, source = before ++ token.lexeme ++ after ∧ tokenize before = .ok lead ∧
      token.line = 1 + newlines before := by
  obtain ⟨line, rest, tiles, -⟩ := tokenize_eq_ok_iff_tiles.mp lexes
  exact tiles.place

theorem Tiles.place_of_fails {source : String} {tokens : List Token} {line : Nat} {rest : List Char}
    {error : LexicalError} (tiles : Tiles 1 source.toList tokens line rest)
    (fails : Fails line rest error) :
    ∃ before after, source.toList = before.toList ++ error.fault.text ++ after ∧
      tokenize before = .ok tokens ∧ error.line = 1 + newlines before := by
  obtain ⟨taken, whole⟩ := tiles.exists_append
  rw [whole] at tiles
  cases fails with
  | @intro blanks _ fault blank stuck =>
    have alone := tiles.alone
    have counted := alone.line_add_count
    have here : (String.ofList (taken ++ blanks)).toList = taken ++ blanks := String.toList_ofList
    obtain ⟨unread, rfl, -⟩ := stuck.split
    refine ⟨.ofList (taken ++ blanks), unread, ?_, alone.tokenize_append_blanks blank here, ?_⟩
    · rw [whole, here]
      simp
    · rw [List.count_nil] at counted
      show line + blanks.count '\n' = _
      rw [newlines, here, List.count_append]
      omega

end TypedLisp
