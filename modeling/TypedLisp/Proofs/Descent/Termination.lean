import TypedLisp.Proofs.Descent.Calls
import TypedLisp.Proofs.Reading.Stopping

/-! Calls on one parser come to an end, each of them and all together.

No loop and no recursion of a call goes on for ever. If a call fails for anything but the
end of the text it has taken a token or come to the fault that ends the tokens, so there
are not many more such calls than tokens; after them all calls find the end of the text,
on one line.
-/

set_option autoImplicit false

namespace TypedLisp

namespace Lexer

/-- A reading uses up its text, or stands behind the tokens it has pulled, of which there are some. -/
theorem read_spends (lexer : Lexer) :
    lexer.read.after = lexer.lexAll.after ∨ ∃ first rest,
      Tiles lexer.line lexer.rest (first :: rest) lexer.read.after.line lexer.read.after.rest := by
  unfold read
  rcases Reader.start.run_cases lexer with ⟨last, -, run⟩ |
    ⟨before, token, -, -, error, after, -, -, -, run, tiles⟩
  · rw [run]
    exact .inl rfl
  · rw [run]
    cases before with
    | nil => exact .inr ⟨token, [], tiles⟩
    | cons first before => exact .inr ⟨first, before ++ [token], tiles⟩

/-- A reading that fails has met the end of its text or the fault that ends the tokens, or has pulled
some tokens and refused the last. -/
theorem read_error {lexer : Lexer} {error : SourceError} (failed : lexer.read.result = .error error) :
    error.fault = .unexpectedEnd ∨
    (∃ lexical, error = lexical.map .lexical ∧ lexer.lexAll.failure = some lexical) ∨
    ∃ first rest, Tiles lexer.line lexer.rest (first :: rest) lexer.read.after.line lexer.read.after.rest := by
  unfold read at failed ⊢
  rcases Reader.start.run_cases lexer with ⟨last, taken, run⟩ |
    ⟨before, token, -, -, error, after, -, -, -, run, tiles⟩
  · rw [run] at failed
    obtain refused | ⟨-, -, ⟨lexical, failure, rfl⟩ | ⟨-, -, rfl⟩⟩ :=
      Reader.outcome_eq_error_iff.mp failed
    · cases taken.symm.trans refused
    · exact .inr (.inl ⟨lexical, rfl, failure⟩)
    · exact .inl rfl
  · rw [run]
    cases before with
    | nil => exact .inr (.inr ⟨token, [], tiles⟩)
    | cons first before => exact .inr (.inr ⟨first, before ++ [token], tiles⟩)

end Lexer

namespace Parser

-- A call takes a token or leaves the text used up, and from a text used up no call takes anything.
theorem spent_afterCalls {source : String} {calls : Nat} {later : Parser}
    (reached : (ofSource source).afterCalls calls = some later) :
    later.lexer = (Lexer.ofSource source).lexAll.after ∨
      ∃ tokens, calls ≤ tokens.length ∧
        Tiles 1 source.toList tokens later.lexer.line later.lexer.rest := by
  induction calls generalizing later with
  | zero =>
    cases reached
    exact .inr ⟨[], Nat.le_refl 0, .done⟩
  | succ calls ih =>
    obtain ⟨before, reached', settled⟩ := exists_afterCalls (ofSource_settled source) calls
    obtain ⟨after, called, left, -⟩ := exists_run settled
    cases reached.symm.trans (afterCalls_succ reached' called)
    rw [left]
    rcases ih reached' with spent | ⟨tokens, many, tiles⟩
    · rw [spent, Lexer.read_of_nothing (Lexer.rest_lexAll _)]
      exact .inl rfl
    · have lexed : (Lexer.ofSource source).lexAll = _ := Lexer.lexAll_of_tiles tiles
      rcases before.lexer.read_spends with spent | ⟨first, rest, more⟩
      · rw [spent, lexed]
        exact .inl rfl
      · refine .inr ⟨tokens ++ first :: rest, ?_, tiles.trans more⟩
        rw [List.length_append, List.length_cons]
        omega

/-- The line that a text is used up on: that of the fault that ends its tokens, or its last line. -/
def endLine (source : String) : Nat :=
  ((Lexer.ofSource source).lexAll.failure.map Located.line).getD (1 + newlines source)

theorem lexer_of_afterCalls {source : String} {calls : Nat} {later : Parser}
    (many : (Lexer.ofSource source).lexAll.tokens.length < calls)
    (reached : (ofSource source).afterCalls calls = some later) :
    later.lexer = ⟨[], endLine source⟩ := by
  rcases spent_afterCalls reached with spent | ⟨tokens, taken, tiles⟩
  · rw [spent, Lexer.after_lexAll]
    rfl
  · have lexed : (Lexer.ofSource source).lexAll = _ := Lexer.lexAll_of_tiles tiles
    rw [lexed, List.length_append] at many
    omega

/-- A call comes to an end, whatever calls were before it. One that fails takes a token or has come to
the fault that ends the tokens, unless it finds the end of the text; all calls find that, always on the
same line, after one more than there are tokens. -/
theorem calls_end (source : String) :
    (∀ calls, ∃ before result after, (ofSource source).afterCalls calls = some before ∧
      before.run = some (result, after)) ∧
    (∀ calls before after error, (ofSource source).afterCalls calls = some before →
      before.run = some (.error error, after) → error.fault ≠ .unexpectedEnd →
      (∃ first rest,
        Tiles before.lexer.line before.lexer.rest (first :: rest) after.lexer.line after.lexer.rest) ∨
      ∃ lexical, error = lexical.map .lexical ∧
        (Lexer.ofSource source).lexAll.failure = some lexical) ∧
    ∀ calls, (Lexer.ofSource source).lexAll.tokens.length + 1 ≤ calls →
      ∃ before after, (ofSource source).afterCalls calls = some before ∧
        before.run = some (.error ⟨.unexpectedEnd, endLine source⟩, after) := by
  have fresh := ofSource_settled source
  refine ⟨fun calls => ?_, fun calls before after error reached called other => ?_, fun calls many => ?_⟩
  · obtain ⟨before, reached, settled⟩ := exists_afterCalls fresh calls
    obtain ⟨after, called, -⟩ := exists_run settled
    exact ⟨before, _, after, reached, called⟩
  · obtain ⟨result, left, -⟩ := reads_of_run (settled_of_afterCalls fresh reached) called
    rw [left]
    rcases Lexer.read_error result.symm with ended | ⟨lexical, rfl, failure⟩ | taken
    · contradiction
    · refine .inr ⟨lexical, rfl, ?_⟩
      rcases spent_afterCalls reached with spent | ⟨tokens, -, tiles⟩
      · rw [spent, Lexer.lexAll_of_nothing (Lexer.rest_lexAll _)] at failure
        cases failure
      · have lexed : (Lexer.ofSource source).lexAll = _ := Lexer.lexAll_of_tiles tiles
        rw [lexed]
        exact failure
    · exact .inl taken
  · obtain ⟨before, reached, settled⟩ := exists_afterCalls fresh calls
    obtain ⟨after, called, -⟩ := exists_run settled
    rw [lexer_of_afterCalls many reached, Lexer.read_of_nothing rfl] at called
    exact ⟨before, after, reached, called⟩

/-- Two parentheses are refused and then a character, so the end is found from the fourth call on. -/
theorem calls_end_illegal :
    (∃ first rest, Tiles 1 ")\n)#".toList (first :: rest) 1 "\n)#".toList) ∧
      (ofSource ")\n)#").results 3 = some [.error ⟨.unexpectedToken ")", 1⟩,
        .error ⟨.unexpectedToken ")", 2⟩, .error ⟨.lexical (.illegal '#'), 2⟩] ∧
      ∀ calls, 3 ≤ calls → ∃ before after, (ofSource ")\n)#").afterCalls calls = some before ∧
        before.run = some (.error ⟨.unexpectedEnd, 2⟩, after) := by
  obtain ⟨returns, fails, ends⟩ := calls_end ")\n)#"
  have fresh := ofSource_settled ")\n)#"
  obtain ⟨before, result, after, reached, called⟩ := returns 0
  cases reached
  obtain ⟨read, left, -⟩ := reads_of_run fresh called
  have behindFirst : after.lexer = ⟨"\n)#".toList, 1⟩ := left.trans (by decide +kernel)
  have refused : result = .error ⟨.unexpectedToken ")", 1⟩ := read.trans (by decide +kernel)
  rw [refused] at called
  refine ⟨?_, (results_eq_readTimes fresh 3).trans (by decide +kernel), ?_⟩
  · rcases fails 0 _ after _ rfl called (by decide) with taken | ⟨lexical, met, -⟩
    · rwa [behindFirst] at taken
    · cases met
  · have tokens : (Lexer.ofSource ")\n)#").lexAll.tokens.length = 2 := by decide +kernel
    have line : endLine ")\n)#" = 2 := by decide +kernel
    rwa [tokens, line] at ends

end Parser

end TypedLisp
