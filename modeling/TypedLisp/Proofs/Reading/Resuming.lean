import TypedLisp.Proofs.Reading.Progress
import TypedLisp.Proofs.Reading.Sequencing

/-! Reading on where a reading has stopped.

A reading that ends with its text or with a fault of the lexer leaves nothing, and
readings after it find the end. One that ends with a refused token leaves the text
after that token, which is read as it would be alone, but for its lines.
-/

set_option autoImplicit false

namespace TypedLisp

theorem Reader.outcome_shift (lines : Nat) (lexed : Lexed) :
    start.outcome (lexed.shift lines) =
      mapResult (· + lines) (.shift lines) (start.outcome lexed) := by
  have moved : start = start.relocate (· + lines) [] := rfl
  rw [moved, outcome_relocate lines [], ← moved]
  unfold outcome
  cases read : start.feed lexed.tokens with
  | error refused => rfl
  | ok last =>
    dsimp only [mapResult, Except.bind]
    cases failure : lexed.failure with
    | some error => rfl
    | none =>
      dsimp only [finish]
      rw [program?_mapLines]
      cases last.program? <;> rfl

theorem Tiles.line_le {line line' : Nat} {text rest : List Char} {tokens : List Token}
    (tiles : Tiles line text tokens line' rest) : line ≤ line' := by
  induction tiles with
  | done => exact Nat.le_refl _
  | token _ _ _ _ ih => exact Nat.le_trans (Nat.le_add_right ..) ih

namespace Lexer

theorem read_of_nothing {lexer : Lexer} (nothing : lexer.rest = []) :
    lexer.read = ⟨.error ⟨.unexpectedEnd, lexer.line⟩, [], lexer⟩ :=
  Reader.start.run_of_ended (pull_of_nothing nothing)

theorem read_cases (lexer : Lexer) :
    (leavesText lexer.read.result = false ∧ lexer.read.after.rest = []) ∨
    leavesText lexer.read.result ∧ ∃ before last, lexer.read.pulled = before ++ [last] ∧
      Tiles lexer.line lexer.rest (before ++ [last]) lexer.read.after.line lexer.read.after.rest := by
  unfold read
  rcases Reader.start.run_cases lexer with ⟨last, taken, run⟩ |
    ⟨before, token, later, next, error, after, split, taken, refused, run, tiles⟩
  · rw [run]
    exact .inl ⟨Reader.leavesText_outcome taken, lexer.rest_lexAll⟩
  · rw [run]
    exact .inr ⟨(Reader.refuses_of_step refused).leavesText, before, token, rfl, tiles⟩

/-- What is left is read as a text of its own, further down. -/
theorem read_result (lexer : Lexer) (counted : 1 ≤ lexer.line) :
    lexer.read.result = mapResult (· + (lexer.line - 1)) (.shift (lexer.line - 1))
      (parse (String.ofList lexer.rest)) := by
  obtain ⟨rest, line⟩ := lexer
  obtain ⟨lines, rfl⟩ := Nat.exists_eq_add_of_le counted
  have source : Lexer.ofSource (String.ofList rest) = ⟨rest, 1⟩ := by
    simp only [ofSource, String.toList_ofList]
  rw [parse_eq_outcome, source, Nat.add_sub_cancel_left, ← Reader.outcome_shift, ← lexAll_shift]
  exact Reader.start.run_result _

end Lexer

end TypedLisp
