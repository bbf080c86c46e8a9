import TypedLisp.Proofs.Lexing.Continuation
import TypedLisp.Proofs.Node.Lines

/-! Texts cut between two tokens.

A tiling may be cut after any of its tokens. What stands before the cut is tiled the
same without what follows it, and what follows it is tiled the same wherever else it
stands after a blank, but for the lines of its tokens.
-/

set_option autoImplicit false

namespace TypedLisp

section
variable {line line' : Nat} {text rest : List Char} {tokens : List Token}

theorem Tiles.cut {first second : List Token} (tiles : Tiles line text (first ++ second) line' rest) :
    ∃ middle between, Tiles line text first middle between ∧ Tiles middle between second line' rest := by
  induction first generalizing line text with
  | nil => exact ⟨line, text, .done, tiles⟩
  | cons token first ih =>
    cases tiles with
    | token allBlank longest classifies more =>
      obtain ⟨middle, between, before, after⟩ := ih more
      exact ⟨middle, between, .token allBlank longest classifies before, after⟩

theorem Tiles.exists_append (tiles : Tiles line text tokens line' rest) :
    ∃ taken, text = taken ++ rest := by
  induction tiles with
  | done => exact ⟨[], rfl⟩
  | @token _ _ blanks _ lexeme _ _ _ _ _ longest _ _ ih =>
    obtain ⟨taken, rfl⟩ := ih
    exact ⟨blanks ++ (lexeme ++ taken), by simp [longest.split]⟩

theorem Longest.of_append {lexeme after tail : List Char}
    (longest : Longest (lexeme ++ (after ++ tail)) lexeme (after ++ tail)) :
    Longest (lexeme ++ after) lexeme after := by
  refine ⟨rfl, longest.isLexeme, fun other rest split isLexeme => ?_⟩
  refine longest.maximal other (rest ++ tail) ?_ isLexeme
  rw [← List.append_assoc, split, List.append_assoc]

theorem Tiles.alone (tiles : Tiles line (text ++ rest) tokens line' rest) :
    Tiles line text tokens line' [] := by
  generalize whole : text ++ rest = total at tiles
  induction tiles generalizing text with
  | done =>
    obtain rfl : text = [] := by simpa using whole
    exact .done
  | @token line line' blanks _ lexeme after rest kind tokens allBlank longest classifies more ih =>
    obtain ⟨taken, rfl⟩ := more.exists_append
    have split := longest.split
    subst split
    obtain rfl : text = blanks ++ (lexeme ++ taken) := by
      rw [← List.append_assoc, ← List.append_assoc] at whole
      simpa using List.append_cancel_right whole
    exact .token allBlank longest.of_append classifies (ih rfl)

/-- Tokens up to the end of a text, with more text after a blank, or with nothing before it. -/
theorem Tiles.onward (tiles : Tiles line text tokens line' []) {more : List Char}
    (apart : text = [] ∨ StartsBlank more) : Tiles line (text ++ more) tokens line' more := by
  rcases apart with rfl | apart
  · generalize none : ([] : List Char) = nothing at tiles
    cases tiles with
    | done =>
      subst none
      exact .done
    | token _ longest _ _ =>
      obtain ⟨first, later, rfl, -⟩ := longest.starts
      simp at none
  · exact tiles.append apart

theorem Tiles.elsewhere (tiles : Tiles line text tokens line' rest) (ends : AllBlank rest)
    {gap : List Char} (blank : AllBlank gap) (other : Nat) :
    ∃ tokens' line'' rest', Tiles other (gap ++ text) tokens' line'' rest' ∧ AllBlank rest' ∧
      tokens'.map (Token.mapLine fun _ => 0) = tokens.map (Token.mapLine fun _ => 0) := by
  induction tiles generalizing gap other with
  | done => exact ⟨[], other, _, .done, List.forall_mem_append.mpr ⟨blank, ends⟩, rfl⟩
  | @token line _ blanks text lexeme after _ kind tokens allBlank longest classifies _ ih =>
    obtain ⟨tokens', line'', rest', tiles, ends', same⟩ :=
      ih ends (List.forall_mem_nil _) (other + (gap ++ blanks).count '\n')
    rw [← List.append_assoc]
    have both : AllBlank (gap ++ blanks) := List.forall_mem_append.mpr ⟨blank, allBlank⟩
    refine ⟨_, line'', rest', .token both longest classifies tiles, ends', ?_⟩
    rw [List.map_cons, List.map_cons, same]
    rfl

end

end TypedLisp
