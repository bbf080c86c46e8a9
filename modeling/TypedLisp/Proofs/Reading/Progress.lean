import TypedLisp.Proofs.Lexing.Tiling
import TypedLisp.Proofs.Reading.Programs

/-! How far a reading goes.

A reading pulls the tokens of a text in order, up to and with the first one that the
reader refuses, and all of them if none is refused. What is left of the text is what
follows the last token pulled.
-/

set_option autoImplicit false

namespace TypedLisp

theorem Lexer.tiles_of_pull {lexer after : Lexer} {token : Token}
    (pulled : lexer.pull = .token token after) :
    Tiles lexer.line lexer.rest [token] after.line after.rest := by
  rcases cases_text lexer.rest with allBlank | ⟨blanks, rest, split, allBlank, stuck | found⟩
  · cases pulled.symm.trans (pull_of_allBlank allBlank lexer.line)
  · obtain ⟨fault, stuck⟩ := stuck
    have failed := pull_of_stuck lexer.line allBlank stuck
    rw [← split] at failed
    cases pulled.symm.trans failed
  · obtain ⟨lexeme, remaining, kind, longest, classifies⟩ := found
    have taken := pull_of_longest lexer.line allBlank longest classifies
    rw [← split] at taken
    cases pulled.symm.trans taken
    rw [split]
    exact .token allBlank longest classifies .done

theorem Tiles.trans {line line' line'' : Nat} {text rest rest' : List Char} {tokens later : List Token}
    (tiles : Tiles line text tokens line' rest) (more : Tiles line' rest later line'' rest') :
    Tiles line text (tokens ++ later) line'' rest' := by
  induction tiles with
  | done => exact more
  | token allBlank longest classifies _ ih => exact .token allBlank longest classifies (ih more)

namespace Reader

/-! ## Refusals -/

/-- Why a reader refuses a token. -/
inductive Refuses (reader : Reader) (token : Token) : SourceError → Prop
  | unexpected : Refuses reader token ⟨.unexpectedToken token.lexeme, token.line⟩
  | tooDeep {context : Context} : reader.state = .inside context → token.kind = .leftParen →
      nestingLimit ≤ context.forms.length → Refuses reader token ⟨.nestedTooDeep, token.line⟩
  -- A parenthesis that opens something completes nothing.
  | illTyped (fault : TypeFault) (line : Nat) : token.kind ≠ .leftParen →
      Refuses reader token ⟨.illTyped fault, line⟩

section
variable {reader : Reader} {token : Token} {error : SourceError}

theorem Hole.fill_eq_error {hole : Hole} {expression : Node}
    (refused : hole.fill expression = .error error) : ∃ fault line, error = ⟨.illTyped fault, line⟩ := by
  cases hole with
  | operand operator operands =>
    dsimp only [Hole.fill] at refused
    split at refused <;> cases refused
  | condition =>
    dsimp only [Hole.fill] at refused
    split at refused
    · cases refused
      exact ⟨_, _, rfl⟩
    · cases refused
  | thenBranch | elseBranch | body | argument => cases refused

theorem fill_eq_error {context : Context} {expression : Node}
    (refused : reader.fill context expression = .error error) :
    ∃ fault line, error = ⟨.illTyped fault, line⟩ := by
  unfold fill at refused
  split at refused
  · split at refused <;> cases refused
  · split at refused
    next filled =>
      cases refused
      exact Hole.fill_eq_error filled
    · cases refused
    · cases refused

theorem applyOperator_eq_error {operator : Operator} {operands : List Node} {line : Nat}
    (refused : applyOperator operator operands line = .error error) :
    ∃ fault line, error = ⟨.illTyped fault, line⟩ := by
  unfold applyOperator at refused
  split at refused
  next grouped =>
    cases refused
    unfold groupOperands at grouped
    split at grouped
    · split at grouped
      · cases grouped
        exact ⟨_, _, rfl⟩
      · cases grouped
    · cases grouped
  · split at refused
    · cases refused
      exact ⟨_, _, rfl⟩
    · cases refused

theorem close_eq_error {line closeLine : Nat} {whole : Whole} {context : Context}
    (refused : reader.close line whole context closeLine = .error error) :
    ∃ fault line, error = ⟨.illTyped fault, line⟩ := by
  unfold close at refused
  split at refused
  next closed =>
    cases refused
    obtain ⟨operator, operands, rfl, applied⟩ := Whole.close_eq_error_iff.mp closed
    exact applyOperator_eq_error applied
  · exact fill_eq_error refused
  · cases refused

theorem refuses_of_illTyped (noOpening : token.kind ≠ .leftParen)
    (illTyped : ∃ fault line, error = ⟨.illTyped fault, line⟩) : Refuses reader token error := by
  obtain ⟨fault, line, rfl⟩ := illTyped
  exact .illTyped fault line noOpening

theorem refuses_of_begin {context : Context} (state : reader.state = .inside context ∨
      token.kind ≠ .leftParen) (refused : reader.begin context token = .error error) :
    Refuses reader token error := by
  unfold begin at refused
  split at refused
  case h_4 opens =>
    split at refused
    · cases refused
    next full =>
      cases refused
      exact .tooDeep (state.resolve_right (absurd opens)) opens (by omega)
  case h_5 =>
    cases refused
    exact .unexpected
  all_goals
    next kind => exact refuses_of_illTyped (by simp [kind]) (fill_eq_error refused)

theorem refuses_of_openForm {line : Nat} {context : Context}
    (refused : reader.openForm line context token = .error error) : Refuses reader token error := by
  unfold openForm at refused
  split at refused
  case h_6 =>
    cases refused
    exact .unexpected
  all_goals cases refused

/-- A token is refused for itself, for the depth it would reach, or for types it completes. -/
theorem refuses_of_step (refused : reader.step token = .error error) : Refuses reader token error := by
  unfold step at refused
  cases state : reader.state with
  | idle =>
    simp only [state] at refused
    split at refused
    · cases refused
    next noOpening => exact refuses_of_begin (.inr noOpening) refused
  | statementHead line =>
    simp only [state] at refused
    split at refused
    case h_4 => exact refuses_of_openForm refused
    all_goals cases refused
  | inside context =>
    simp only [state] at refused
    split at refused
    next form outer closes _ =>
      split at refused
      · exact refuses_of_illTyped (by simp [closes]) (close_eq_error refused)
      · cases refused
        exact .unexpected
    next => exact refuses_of_begin (.inl state) refused
  | closing line whole context =>
    simp only [state] at refused
    split at refused
    next closes => exact refuses_of_illTyped (by simp [closes]) (close_eq_error refused)
    next =>
      cases refused
      exact .unexpected
  | head line context =>
    simp only [state] at refused
    exact refuses_of_openForm refused
  | parameters role line listLine read context =>
    simp only [state] at refused
    split at refused
    · cases refused
    · cases refused
    · cases refused
      exact .unexpected
  | definedName | statementEnd | calleeHead | parametersStart =>
    simp only [state] at refused
    split at refused
    · cases refused
    · cases refused
      exact .unexpected

end

/-! ## Runs -/

theorem feed_eq_error_iff {reader : Reader} {tokens : List Token} {error : SourceError} :
    reader.feed tokens = .error error ↔
      ∃ before token later next, tokens = before ++ token :: later ∧
        reader.feed before = .ok next ∧ next.step token = .error error := by
  constructor
  · intro refused
    induction tokens generalizing reader with
    | nil => cases refused
    | cons token tokens ih =>
      rw [feed_cons] at refused
      cases stepped : reader.step token with
      | error other =>
        rw [stepped] at refused
        cases refused
        exact ⟨[], token, tokens, reader, rfl, rfl, stepped⟩
      | ok next =>
        rw [stepped] at refused
        obtain ⟨before, other, later, last, rfl, taken, refused⟩ := ih refused
        refine ⟨token :: before, other, later, last, rfl, ?_, refused⟩
        rw [feed_cons, stepped, ok_bind, taken]
  · rintro ⟨before, token, later, next, rfl, taken, refused⟩
    rw [feed_append, taken, ok_bind, feed_cons, refused]
    rfl

section
variable {lexer : Lexer}

theorem run_of_feed {reader last : Reader} (taken : reader.feed lexer.lexAll.tokens = .ok last) :
    reader.run lexer = ⟨reader.outcome lexer.lexAll, lexer.lexAll.tokens, lexer.lexAll.after⟩ := by
  induction lexer using Lexer.lexAll.induct generalizing reader with
  | case1 lexer after pulled =>
    rw [reader.run_of_ended pulled, Lexer.lexAll_of_ended pulled]
    rfl
  | case2 lexer error after pulled =>
    rw [reader.run_of_failed pulled, Lexer.lexAll_of_failed pulled]
    rfl
  | case3 lexer token after pulled ih =>
    rw [Lexer.lexAll_of_token pulled] at taken ⊢
    obtain ⟨next, stepped, taken⟩ := feed_cons_eq_ok_iff.mp taken
    rw [run_of_taken pulled stepped, ih taken]
    simp only [outcome, feed_cons, stepped, ok_bind]

-- Induction along the pulls: those before the refused token are taken, and the lexer stops behind it.
theorem run_of_refusal {reader next : Reader} {before later : List Token} {token : Token}
    {error : SourceError} (split : lexer.lexAll.tokens = before ++ token :: later)
    (taken : reader.feed before = .ok next) (refused : next.step token = .error error) :
    ∃ after, reader.run lexer = ⟨.error error, before ++ [token], after⟩ ∧
      Tiles lexer.line lexer.rest (before ++ [token]) after.line after.rest := by
  induction lexer using Lexer.lexAll.induct generalizing reader before with
  | case1 lexer after pulled =>
    rw [Lexer.lexAll_of_ended pulled] at split
    cases List.append_eq_nil_iff.mp split.symm |>.2
  | case2 lexer failure after pulled =>
    rw [Lexer.lexAll_of_failed pulled] at split
    cases List.append_eq_nil_iff.mp split.symm |>.2
  | case3 lexer first after pulled ih =>
    rw [Lexer.lexAll_of_token pulled] at split
    cases before with
    | nil =>
      obtain ⟨rfl, -⟩ := List.cons.inj split
      cases taken
      exact ⟨after, run_of_refused pulled refused, Lexer.tiles_of_pull pulled⟩
    | cons head before =>
      obtain ⟨rfl, more⟩ := List.cons.inj split
      obtain ⟨middle, stepped, taken⟩ := feed_cons_eq_ok_iff.mp taken
      obtain ⟨last, run, tiles⟩ := ih more taken
      refine ⟨last, ?_, (Lexer.tiles_of_pull pulled).trans tiles⟩
      rw [run_of_taken pulled stepped, run]
      rfl

end

/-- A reading takes all tokens of a text, or pulls those before a refused one and that one. -/
theorem run_cases (reader : Reader) (lexer : Lexer) :
    (∃ last, reader.feed lexer.lexAll.tokens = .ok last ∧
      reader.run lexer = ⟨reader.outcome lexer.lexAll, lexer.lexAll.tokens, lexer.lexAll.after⟩) ∨
    ∃ before token later next error after, lexer.lexAll.tokens = before ++ token :: later ∧
      reader.feed before = .ok next ∧ next.step token = .error error ∧
      reader.run lexer = ⟨.error error, before ++ [token], after⟩ ∧
      Tiles lexer.line lexer.rest (before ++ [token]) after.line after.rest := by
  cases fed : reader.feed lexer.lexAll.tokens with
  | ok last => exact .inl ⟨last, rfl, run_of_feed fed⟩
  | error error =>
    obtain ⟨before, token, later, next, split, taken, refused⟩ := feed_eq_error_iff.mp fed
    obtain ⟨after, run, tiles⟩ := run_of_refusal split taken refused
    exact .inr ⟨before, token, later, next, error, after, split, taken, refused, run, tiles⟩

end Reader

/-! ## Results -/

def leavesText : Except SourceError Node → Bool
  | .ok _ => false
  | .error ⟨.lexical _, _⟩ | .error ⟨.unexpectedEnd, _⟩ => false
  | .error ⟨.unexpectedToken _, _⟩ | .error ⟨.nestedTooDeep, _⟩ | .error ⟨.illTyped _, _⟩ => true

theorem Reader.Refuses.leavesText {reader : Reader} {token : Token} {error : SourceError}
    (refuses : reader.Refuses token error) : leavesText (.error error) := by
  cases refuses <;> rfl

theorem Reader.leavesText_outcome {reader last : Reader} {lexed : Lexed}
    (taken : reader.feed lexed.tokens = .ok last) : leavesText (reader.outcome lexed) = false := by
  simp only [outcome, taken, ok_bind]
  cases lexed.failure with
  | some error => rfl
  | none =>
    dsimp only [finish]
    split <;> rfl

theorem refusal_of_parse {source : String} {error : SourceError} (parsed : parse source = .error error)
    (leaves : leavesText (.error error)) :
    ∃ before token next, before ++ [token] <+: (Lexer.ofSource source).lexAll.tokens ∧
      Reader.start.feed before = .ok next ∧ next.step token = .error error ∧
      (Lexer.ofSource source).read.pulled = before ++ [token] := by
  rcases Reader.start.run_cases (.ofSource source) with ⟨last, taken, -⟩ |
    ⟨before, token, later, next, other, after, split, taken, refused, run, -⟩
  · rw [← parsed, parse_eq_outcome, Reader.leavesText_outcome taken] at leaves
    contradiction
  · have read : (Lexer.ofSource source).read = ⟨.error other, before ++ [token], after⟩ := run
    rw [parse, read] at parsed
    cases Except.error.inj parsed
    refine ⟨before, token, next, ⟨later, ?_⟩, taken, refused, by rw [read]⟩
    rw [split, List.append_assoc, List.singleton_append]

end TypedLisp
