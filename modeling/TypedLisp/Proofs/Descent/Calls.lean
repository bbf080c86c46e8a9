import Mathlib.Control.Monad.Basic
import TypedLisp.Proofs.Descent.Productions
import TypedLisp.Proofs.Reading.Resuming

/-! Calls on one parser.

Each call comes to an end. It gives what a reading from the same text gives, and leaves
the parser between tokens with nothing open. So calls after the text is used up find
its end, and a call after a refused token reads on behind it.
-/

set_option autoImplicit false

namespace TypedLisp

namespace Parser

theorem ofSource_settled (source : String) : (ofSource source).Settled 0 :=
  ⟨rfl, rfl, Nat.zero_le _⟩

section
variable {parser before after : Parser} {result : Except SourceError Node} {calls : Nat}

theorem exists_run (settled : parser.Settled 0) :
    ∃ after, parser.run = some (parser.lexer.read.result, after) ∧
      after.lexer = parser.lexer.read.after ∧ after.Settled 0 := by
  have tracks := follows_program parser settled trivial
  unfold run
  generalize program parser = result at tracks ⊢
  obtain _ | ⟨error | tree, after⟩ := result
  · exact tracks.elim
  · obtain ⟨settled, reads⟩ := tracks
    obtain ⟨result, left⟩ := Prod.mk.inj reads
    exact ⟨after, by rw [Lexer.read, result], left.symm, settled⟩
  · obtain ⟨settled, -, reads⟩ := tracks
    obtain ⟨result, left⟩ := Prod.mk.inj reads
    exact ⟨after, by rw [Lexer.read, result], left.symm, settled⟩

theorem reads_of_run (settled : parser.Settled 0) (called : parser.run = some (result, after)) :
    result = parser.lexer.read.result ∧ after.lexer = parser.lexer.read.after ∧ after.Settled 0 := by
  obtain ⟨after', called', left⟩ := exists_run settled
  cases called.symm.trans called'
  exact ⟨rfl, left⟩

theorem afterCalls_succ (reached : parser.afterCalls calls = some before)
    (called : before.run = some (result, after)) : parser.afterCalls (calls + 1) = some after := by
  rw [afterCalls, reached, Option.bind_some, called]
  rfl

theorem exists_afterCalls (settled : parser.Settled 0) (calls : Nat) :
    ∃ later, parser.afterCalls calls = some later ∧ later.Settled 0 := by
  induction calls with
  | zero => exact ⟨parser, rfl, settled⟩
  | succ calls ih =>
    obtain ⟨before, reached, settled⟩ := ih
    obtain ⟨after, called, -, settled⟩ := exists_run settled
    exact ⟨after, afterCalls_succ reached called, settled⟩

theorem settled_of_afterCalls (settled : parser.Settled 0)
    (reached : parser.afterCalls calls = some before) : before.Settled 0 := by
  obtain ⟨before', reached', settled⟩ := exists_afterCalls settled calls
  cases reached.symm.trans reached'
  exact settled

theorem results_eq_readTimes (settled : parser.Settled 0) (calls : Nat) :
    parser.results calls = some (parser.lexer.readTimes calls) := by
  induction calls generalizing parser with
  | zero => rfl
  | succ calls ih =>
    obtain ⟨after, called, left, settled⟩ := exists_run settled
    rw [results, called, Option.bind_some, Lexer.readTimes, ← left]
    exact congrArg (Option.map _) (ih settled)

theorem lexer_afterCalls_of_nothing (settled : parser.Settled 0) (nothing : parser.lexer.rest = [])
    (reached : parser.afterCalls calls = some before) : before.lexer = parser.lexer := by
  induction calls generalizing before with
  | zero =>
    cases reached
    rfl
  | succ calls ih =>
    obtain ⟨earlier, reached', settled⟩ := exists_afterCalls settled calls
    obtain ⟨later, called, left, -⟩ := exists_run settled
    cases reached.symm.trans (afterCalls_succ reached' called)
    rw [left, Lexer.read_of_nothing (ih reached' ▸ nothing)]
    exact ih reached'

/-- After a call that leaves nothing all calls find the end, on the line where the text ended. -/
theorem exists_run_of_ended (settled : parser.Settled 0) (called : parser.run = some (result, after))
    (ended : leavesText result = false) (more : Nat) :
    ∃ later last, after.afterCalls more = some later ∧
      later.run = some (.error ⟨.unexpectedEnd, after.lexer.line⟩, last) ∧
      later.lexer.line = after.lexer.line := by
  obtain ⟨rfl, left, settled'⟩ := reads_of_run settled called
  have nothing : after.lexer.rest = [] := by
    rcases parser.lexer.read_cases with ⟨-, nothing⟩ | ⟨leaves, -⟩
    · rw [left, nothing]
    · rw [ended] at leaves
      contradiction
  obtain ⟨later, reached, settled⟩ := exists_afterCalls settled' more
  have stays := lexer_afterCalls_of_nothing settled' nothing reached
  obtain ⟨last, called, -⟩ := exists_run settled
  rw [stays, Lexer.read_of_nothing nothing] at called
  exact ⟨later, last, reached, called, congrArg Lexer.line stays⟩

theorem tiles_of_leavesText (settled : parser.Settled 0) (called : parser.run = some (result, after))
    (leaves : leavesText result) :
    ∃ pulled last, parser.lexer.read.pulled = pulled ++ [last] ∧
      Tiles parser.lexer.line parser.lexer.rest (pulled ++ [last]) after.lexer.line after.lexer.rest := by
  obtain ⟨rfl, left, -⟩ := reads_of_run settled called
  rcases parser.lexer.read_cases with ⟨ended, -⟩ | ⟨-, tiles⟩
  · rw [leaves] at ended
    contradiction
  · rwa [left]

end

/-- Calls on a parser for a text use it up, or stand behind some of its tokens. -/
theorem tiles_afterCalls {source : String} {calls : Nat} {later : Parser}
    (reached : (ofSource source).afterCalls calls = some later) :
    later.lexer.rest = [] ∨
      ∃ tokens, Tiles 1 source.toList tokens later.lexer.line later.lexer.rest := by
  induction calls generalizing later with
  | zero =>
    cases reached
    exact .inr ⟨[], .done⟩
  | succ calls ih =>
    obtain ⟨before, reached', settled⟩ := exists_afterCalls (ofSource_settled source) calls
    obtain ⟨after, called, left, -⟩ := exists_run settled
    cases reached.symm.trans (afterCalls_succ reached' called)
    rw [left]
    rcases ih reached' with nothing | ⟨tokens, tiles⟩
    · rw [Lexer.read_of_nothing nothing]
      exact .inl nothing
    · rcases before.lexer.read_cases with ⟨-, nothing⟩ | ⟨-, earlier, last, -, more⟩
      · exact .inl nothing
      · exact .inr ⟨_, tiles.trans more⟩

/-- Any number of calls on one parser, and the one after them. -/
theorem calls_resume (source : String) (calls : Nat) :
    ∃ before result after, (ofSource source).afterCalls calls = some before ∧
      before.run = some (result, after) ∧
      (ofSource source).results calls = some ((Lexer.ofSource source).readTimes calls) ∧
      (result = before.lexer.read.result ∧ after.lexer = before.lexer.read.after) ∧
      (after.deepest ≤ 128 ∧ after.depth = 0 ∧ after.lookahead = none) ∧
      (leavesText result = false → ∀ more, ∃ later last, after.afterCalls more = some later ∧
        later.run = some (.error ⟨.unexpectedEnd, after.lexer.line⟩, last) ∧
        later.lexer.line = after.lexer.line) ∧
      (leavesText result = true →
        (∃ earlier last, before.lexer.read.pulled.getLast? = some last ∧
          Tiles 1 source.toList (earlier ++ [last]) after.lexer.line after.lexer.rest) ∧
        ∃ last, after.run = some (mapResult (· + (after.lexer.line - 1))
          (.shift (after.lexer.line - 1)) (parse (String.ofList after.lexer.rest)), last)) := by
  have fresh := ofSource_settled source
  obtain ⟨before, reached, settled⟩ := exists_afterCalls fresh calls
  obtain ⟨after, called, left, settled'⟩ := exists_run settled
  refine ⟨before, _, after, reached, called, results_eq_readTimes fresh calls, ⟨rfl, left⟩,
    ⟨settled'.deepest, settled'.depth, settled'.lookahead⟩, exists_run_of_ended settled called, ?_⟩
  intro leaves
  obtain ⟨pulled, last, split, more⟩ := tiles_of_leavesText settled called leaves
  -- The call left some of the text, so the calls before it had not used it up.
  rcases tiles_afterCalls reached with nothing | ⟨tokens, tiles⟩
  · rw [Lexer.read_of_nothing nothing] at leaves
    contradiction
  have tiles := tiles.trans more
  refine ⟨⟨tokens ++ pulled, last, ?_, ?_⟩, ?_⟩
  · rw [split, List.getLast?_concat]
  · rwa [List.append_assoc]
  · obtain ⟨last, called, -⟩ := exists_run settled'
    exact ⟨last, by rw [called, after.lexer.read_result tiles.line_le]⟩

/-- The condition is refused as soon as it is read; what follows it is read from there. -/
theorem calls_resume_condition :
    (ofSource "\n(if 1 2)").results 3 =
      some [.error ⟨.illTyped (.mismatch "if test expr" .boolean "number"), 2⟩,
        .error ⟨.unexpectedToken ")", 2⟩, .error ⟨.unexpectedEnd, 2⟩] ∧
    ∃ after last, (ofSource "\n(if 1 2)").afterCalls 1 = some after ∧
      after.run = some (mapResult (· + 1) (.shift 1) (parse " 2)"), last) := by
  obtain ⟨-, -, -, -, -, results, -⟩ := calls_resume "\n(if 1 2)" 3
  obtain ⟨before, result, after, reached, called, -, ⟨read, left⟩, -, -, resumes⟩ :=
    calls_resume "\n(if 1 2)" 0
  have first : before = ofSource "\n(if 1 2)" := (Option.some.inj reached).symm
  have behindCondition : after.lexer = ⟨" 2)".toList, 2⟩ := by
    rw [left, first]
    decide +kernel
  have leaves : leavesText result = true := by
    rw [read, first]
    decide +kernel
  refine ⟨results.trans (by decide +kernel), after, ?_⟩
  obtain ⟨-, last, resumed⟩ := resumes leaves
  rw [behindCondition] at resumed
  exact ⟨last, afterCalls_succ reached called, resumed⟩

end Parser

end TypedLisp
