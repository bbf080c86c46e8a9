import TypedLisp.Proofs.Reading.Agreement
import TypedLisp.Proofs.Reading.Completion
import TypedLisp.Proofs.Reading.Stopping

/-! Texts that end too early.

A reader takes tokens exactly as long as they begin a program and break no rule. So a
text ends too early if its tokens are such and no program. What is reported then is
also what is reported of a token of the same text, a name that is misplaced.
-/

set_option autoImplicit false

namespace TypedLisp

open Grammar

/-- Tokens with nothing wrong in them: they begin a program within the nesting limit and break no rule. -/
structure Grammar.Viable (tokens : List Token) : Prop where
  completable : Completable tokens
  unbroken : ∀ node error, ¬ Breaks tokens node error

/-- The tokens of a text come to an end before a program does, with nothing wrong in them. -/
def RunsOut (source : String) : Prop :=
  ∃ tokens, tokenize source = .ok tokens ∧ Viable tokens ∧ ∀ tree, ¬ Program tokens tree

/-- The first token of a text that is wrong where it stands, so that no program is to come. -/
def Misplaced (source : String) (token : Token) : Prop :=
  ∃ before, before ++ [token] <+: (Lexer.ofSource source).lexAll.tokens ∧ Viable before ∧
    Hopeless (before ++ [token])

theorem Grammar.Breaks.mono {tokens longer : List Token} {node : Node} {error : SourceError}
    (breaks : Breaks tokens node error) (within : tokens <:+: longer) : Breaks longer node error := by
  obtain ⟨demand, fault, demands, fails, illTyped⟩ := breaks
  exact ⟨demand, fault, demands.mono within, fails, illTyped⟩

namespace Reader

/-! ## Rules that tokens keep when they are taken -/

theorem exists_awaits {reader middle next : Reader} {opening head : Token}
    (opens : opening.kind = .leftParen)
    (form : head.kind = .conditional ∨ ∃ operator, head.kind = .operator operator)
    (taken : reader.step opening = .ok middle) (headed : middle.step head = .ok next) :
    ∃ context, Awaits reader context := by
  -- In every other state the parenthesis, or the head after it, is refused.
  have refused (token : Token) (result : Reader) : unexpected token ≠ .ok result := by
    intro same
    cases same
  cases state : reader.state with
  | idle => exact ⟨_, .idle state⟩
  | inside context => exact ⟨_, .inside state⟩
  | statementHead | head | parametersStart =>
    simp only [step, state, openForm, opens] at taken
    cases taken
    rcases form with kind | ⟨operator, kind⟩ <;>
      simp only [step, state_become, kind] at headed <;> exact absurd headed (refused _ _)
  | definedName | statementEnd | closing | calleeHead | parameters =>
    simp only [step, state, opens] at taken
    exact absurd taken (refused _ _)

section
variable {reader last : Reader} {tokens : List Token}

theorem exists_awaits_of_infix {opening head : Token} {rest : List Token}
    (taken : reader.feed tokens = .ok last) (within : opening :: head :: rest <:+: tokens)
    (opens : opening.kind = .leftParen)
    (form : head.kind = .conditional ∨ ∃ operator, head.kind = .operator operator) :
    ∃ first context second, Awaits first context ∧ first.feed (opening :: head :: rest) = .ok second := by
  obtain ⟨before, after, rfl⟩ := within
  obtain ⟨second, start, -⟩ := feed_append_eq_ok_iff.mp taken
  obtain ⟨first, -, piece⟩ := feed_append_eq_ok_iff.mp start
  obtain ⟨middle, opened, headed⟩ := feed_cons_eq_ok_iff.mp piece
  obtain ⟨last, taken, -⟩ := feed_cons_eq_ok_iff.mp headed
  obtain ⟨context, awaits⟩ := exists_awaits opens form opened taken
  exact ⟨first, context, second, awaits, piece⟩

theorem operation_of_feed {opening head closing : Token} {operator : Operator} {inner : List Token}
    {operands : List Node} (taken : reader.feed tokens = .ok last)
    (within : opening :: head :: (inner ++ [closing]) <:+: tokens) (parens : Parens opening closing)
    (kind : head.kind = .operator operator) (many : Many Expression inner operands)
    (takes : operator.Takes operands.length) :
    listFaults operator operands = [] ∧ (operation operator operands opening.line).violation? = none := by
  obtain ⟨first, context, second, awaits, read⟩ :=
    exists_awaits_of_infix taken within parens.opens (.inr ⟨operator, kind⟩)
  have derived := Expression.operation parens kind many takes
  rw [derived.reads awaits, firstOr_eq_ok_iff, faultsFrom_expression, faultsFrom_operation] at read
  obtain ⟨-, rules⟩ := List.append_eq_nil_iff.mp read.1
  obtain ⟨-, rules⟩ := List.append_eq_nil_iff.mp rules
  obtain ⟨list, own⟩ := List.append_eq_nil_iff.mp rules
  exact ⟨list, Option.toList_eq_nil_iff.mp own⟩

-- A rule is demanded of tokens, by a form somewhere in them. The reader has taken that form, so it has
-- checked the rule, and what it checked is the rule of the node.
theorem violation?_of_feed {node : Node} {demand : Demand} {line : Nat}
    (taken : reader.feed tokens = .ok last) (demands : Demands tokens node demand line) :
    node.violation? = none := by
  cases demands with
  | operation within parens kind many takes =>
    exact (operation_of_feed taken within parens kind many takes).2
  | @list opening head second closing operator before later operand operands within parens kind variadic
      derives many several =>
    have takes : operator.Takes (operand :: operands).length := by
      have two : operator.arity = 2 := by cases operator <;> simp_all [Operator.variadic, Operator.arity]
      rw [Operator.takes_iff, two, List.length_cons]
      exact ⟨by omega, .inl variadic⟩
    rw [← List.append_assoc] at within
    obtain ⟨list, -⟩ := operation_of_feed taken within parens kind (.cons derives many) takes
    cases operands with
    | nil => simp at several
    | cons third operands =>
      cases operands with
      | nil => simp at several
      | cons fourth rest =>
        obtain ⟨_, _, same, line⟩ := many.starts
        obtain ⟨rfl, -⟩ := List.cons.inj same
        rw [listFaults, if_pos variadic, ← line] at list
        exact Option.toList_eq_nil_iff.mp list
  | @test opening head token later condition within opens kind derives =>
    obtain ⟨first, context, second, awaits, read⟩ :=
      exists_awaits_of_infix taken within opens (.inl kind)
    have opened : first.openForm opening.line context head =
        .ok (first.become (.inside (context.enter opening.line .condition))) := by
      simp only [openForm, kind]
    have reads : Reads (token :: later) condition := derives.reads
    rw [awaits.feed_opening opens (by simp [kind]), opened, ok_bind, reads.inside, fill_condition,
      firstOr_eq_ok_iff, firstOr_eq_ok_iff, firstOr_eq_ok_iff] at read
    exact Option.toList_eq_nil_iff.mp read.2.2.1

end

/-! ## Tokens that are taken -/

/-- A rule that is reported at a token is broken by the tokens up to it. -/
theorem RefusedAt.breaks {tokens : List Token} {error : SourceError} (refused : RefusedAt tokens error)
    (illTyped : ∃ fault, error.fault = .illTyped fault) : ∃ node, Breaks tokens node error := by
  cases refused with
  | unexpectedToken | nestedTooDeep =>
    obtain ⟨fault, illTyped⟩ := illTyped
    cases illTyped
  | operation ends parens kind many takes fails =>
    exact ⟨_, _, _, .operation ends.isInfix parens kind many takes, fails, rfl⟩
  | list ends parens kind variadic derives many several fails =>
    exact ⟨_, _, _, .list ends.isInfix parens kind variadic derives many several, fails, rfl⟩
  | test ends opens kind derives fails =>
    exact ⟨_, _, _, .test ends.isInfix opens kind derives, fails, rfl⟩

theorem viable_of_feed {tokens : List Token} {last : Reader} (taken : start.feed tokens = .ok last) :
    Viable tokens := by
  refine ⟨completable_of_feed taken, fun node error breaks => ?_⟩
  obtain ⟨demand, fault, demands, fails, illTyped⟩ := breaks
  have violated := demands.breaks_iff.mp ⟨demand, fault, demands, fails, illTyped⟩
  rw [violation?_of_feed taken demands] at violated
  cases violated

/-- What begins a program within the limit can only be refused for a rule that is broken in it. -/
theorem exists_feed_of_viable {tokens : List Token} (viable : Viable tokens) :
    ∃ last, start.feed tokens = .ok last := by
  cases fed : start.feed tokens with
  | ok last => exact ⟨last, rfl⟩
  | error error =>
    obtain ⟨later, tree, program, shallow⟩ := viable.completable
    obtain ⟨last, -, read⟩ := program.reads
    rw [feed_append, fed] at read
    have first : (tree.faultsFrom 0 false).head? = some error := firstOr_ok_eq_error_iff.mp read.symm
    have within : 0 + tree.nestingFrom false ≤ nestingLimit := by rwa [Nat.zero_add]
    rw [Node.faultsFrom_of_shallow tree within, Node.violations, List.head?_filterMap] at first
    obtain ⟨node, -, violated⟩ := List.exists_of_findSome?_eq_some first
    obtain ⟨fault, -, same⟩ := Node.violation?_eq_some_iff.mp violated
    obtain ⟨before, token, after, next, rfl, taken, refused⟩ := feed_eq_error_iff.mp fed
    have illTyped : ∃ fault, error.fault = .illTyped fault := ⟨fault, by rw [same]⟩
    obtain ⟨node, breaks⟩ := ((start_holds.feed taken).refusedAt refused).breaks illTyped
    have whole : before ++ [token] <:+: before ++ token :: after := ⟨[], after, by simp⟩
    exact absurd (breaks.mono whole) (viable.unbroken node error)

/-! ## Names -/

theorem exists_fill_name (reader : Reader) (context : Context) (name : String) (line : Nat) :
    ∃ next, reader.fill context (.expression (.identifier name line)) = .ok next := by
  obtain ⟨statement, forms⟩ := context
  cases forms with
  | nil => cases statement <;> exact ⟨_, rfl⟩
  | cons form outer =>
    obtain ⟨line, hole⟩ := form
    cases hole with
    | operand operator operands =>
      exact ⟨_, fill_operand reader ⟨statement, outer⟩ line operator operands _⟩
    | condition | thenBranch | elseBranch | body | argument => exact ⟨_, rfl⟩

theorem step_name {reader : Reader} {token : Token} {error : SourceError}
    (kind : token.kind = .identifier) (refused : reader.step token = .error error) :
    error = ⟨.unexpectedToken token.lexeme, token.line⟩ := by
  have begins (context : Context) : reader.begin context token ≠ .error error := by
    obtain ⟨next, filled⟩ := exists_fill_name reader context token.lexeme token.line
    rw [begin, kind, filled]
    simp
  cases state : reader.state with
  | idle | inside =>
    simp only [step, state, kind] at refused
    exact absurd refused (begins _)
  | statementHead | definedName | head | parameters =>
    simp only [step, state, openForm, kind] at refused
    cases refused
  | statementEnd | closing | calleeHead | parametersStart =>
    simp only [step, state, kind] at refused
    cases refused
    rfl

end Reader

/-! ## Texts -/

section
variable {source : String} {line : Nat}

theorem parse_of_feed {tokens : List Token} {last : Reader} (lexes : tokenize source = .ok tokens)
    (taken : Reader.start.feed tokens = .ok last) : parse source = last.finish (1 + newlines source) := by
  obtain ⟨intact, rfl⟩ := tokenize_eq_ok_iff.mp lexes
  have ended := Lexer.after_lexAll source
  rw [intact] at ended
  rw [parse_eq_outcome]
  simp only [Reader.outcome, taken, Reader.ok_bind, intact, ended]
  rfl

-- No token is refused with this error, so all of them have been taken and none of them ends a program.
theorem parse_eq_unexpectedEnd_iff :
    parse source = .error ⟨.unexpectedEnd, line⟩ ↔ RunsOut source ∧ line = 1 + newlines source := by
  constructor
  · intro parsed
    obtain ⟨tokens, lexes, -, incomplete⟩ := parse_eq_unexpectedEnd parsed
    cases fed : Reader.start.feed tokens with
    | ok last =>
      refine ⟨⟨tokens, lexes, Reader.viable_of_feed fed, incomplete⟩, ?_⟩
      rw [parse_of_feed lexes fed, Reader.finish] at parsed
      split at parsed
      · cases parsed
      · cases parsed
        rfl
    | error error =>
      obtain ⟨-, rfl⟩ := tokenize_eq_ok_iff.mp lexes
      rw [parse_eq_outcome, Reader.outcome, fed] at parsed
      cases parsed
      obtain ⟨_, _, _, _, -, -, refused⟩ := Reader.feed_eq_error_iff.mp fed
      cases Reader.refuses_of_step refused
  · rintro ⟨⟨tokens, lexes, viable, incomplete⟩, rfl⟩
    obtain ⟨last, taken⟩ := Reader.exists_feed_of_viable viable
    rw [parse_of_feed lexes taken, Reader.finish]
    split
    next tree ended => exact absurd (Reader.program_of_feed taken ended) (incomplete tree)
    next => rfl

theorem misplaced_of_parse {found : String}
    (parsed : parse source = .error ⟨.unexpectedToken found, line⟩) :
    ∃ token, Misplaced source token ∧ token.lexeme = found ∧ token.line = line := by
  obtain ⟨before, token, next, within, taken, refused, -⟩ := refusal_of_parse parsed rfl
  have own : Reader.Refuses next token ⟨.unexpectedToken found, line⟩ := Reader.refuses_of_step refused
  cases own
  exact ⟨token, ⟨before, within, Reader.viable_of_feed taken, Reader.hopeless_of_unexpected taken refused⟩,
    rfl, rfl⟩

theorem parse_of_misplaced {token : Token} (misplaced : Misplaced source token)
    (kind : token.kind = .identifier) :
    parse source = .error ⟨.unexpectedToken token.lexeme, token.line⟩ := by
  obtain ⟨before, ⟨later, split⟩, viable, hopeless⟩ := misplaced
  obtain ⟨next, taken⟩ := Reader.exists_feed_of_viable viable
  cases stepped : next.step token with
  | ok last =>
    -- A token that is taken has a program to follow, so a hopeless one is refused.
    have more : Reader.start.feed (before ++ [token]) = .ok last := by
      rw [Reader.feed_append, taken, Reader.ok_bind, Reader.feed_cons, stepped]
      rfl
    obtain ⟨later, tree, program, -⟩ := Reader.completable_of_feed more
    exact absurd program (hopeless later tree)
  | error error =>
    have refused : Reader.start.feed (before ++ token :: later) = .error error :=
      Reader.feed_eq_error_iff.mpr ⟨before, token, later, next, rfl, taken, stepped⟩
    rw [List.append_assoc, List.singleton_append] at split
    rw [split] at refused
    rw [parse_eq_outcome, Reader.outcome, refused, ← Reader.step_name kind stepped]
    rfl

theorem RunsOut.not_misplaced {token : Token} (runsOut : RunsOut source) : ¬ Misplaced source token := by
  rintro ⟨before, ⟨later, split⟩, -, hopeless⟩
  obtain ⟨tokens, lexes, viable, -⟩ := runsOut
  obtain ⟨-, rfl⟩ := tokenize_eq_ok_iff.mp lexes
  obtain ⟨more, tree, program, -⟩ := viable.completable
  rw [← split, List.append_assoc] at program
  exact hopeless _ tree program

theorem Misplaced.isName {token : Token} (misplaced : Misplaced source token)
    (written : token.lexeme = "EOF") : token.kind = .identifier := by
  obtain ⟨before, within, -⟩ := misplaced
  obtain ⟨isLexeme, classifies⟩ := lexed_of_lexAll source token (within.subset (by simp))
  have kind : TokenKind.ofLexeme "EOF".toList = .ok .identifier := by decide
  rw [← isLexeme.ofLexeme_eq_ok_iff, written, kind] at classifies
  exact (Except.ok.inj classifies).symm

end

/-- The end is found in a text whose tokens run out, and in one with a misplaced name that is written as
the end is. These are different texts, and without such a name what is found tells. -/
theorem found_end_iff (source : String) :
    ((∃ error, parse source = .error error ∧ error.fault.found? = some "EOF") ↔
      RunsOut source ∨
        ∃ token, Misplaced source token ∧ token.kind = .identifier ∧ token.lexeme = "EOF") ∧
    (RunsOut source → ∀ token, ¬ Misplaced source token) ∧
    ((∀ token ∈ (Lexer.ofSource source).lexAll.tokens, token.lexeme ≠ "EOF") →
      ((∃ error, parse source = .error error ∧ error.fault.found? = some "EOF") ↔ RunsOut source)) := by
  have found : (∃ error, parse source = .error error ∧ error.fault.found? = some "EOF") ↔
      RunsOut source ∨
        ∃ token, Misplaced source token ∧ token.kind = .identifier ∧ token.lexeme = "EOF" := by
    constructor
    · rintro ⟨⟨fault, line⟩, parsed, found⟩
      cases fault with
      | unexpectedEnd => exact .inl (parse_eq_unexpectedEnd_iff.mp parsed).1
      | unexpectedToken lexeme =>
        obtain ⟨token, misplaced, rfl, -⟩ := misplaced_of_parse parsed
        have written := Option.some.inj found
        exact .inr ⟨token, misplaced, misplaced.isName written, written⟩
      | lexical | nestedTooDeep | illTyped => cases found
    · rintro (runsOut | ⟨token, misplaced, kind, written⟩)
      · exact ⟨_, parse_eq_unexpectedEnd_iff.mpr ⟨runsOut, rfl⟩, rfl⟩
      · exact ⟨_, parse_of_misplaced misplaced kind, congrArg some written⟩
  refine ⟨found, fun runsOut token => runsOut.not_misplaced, fun free => found.trans ?_⟩
  constructor
  · rintro (runsOut | ⟨token, ⟨before, within, -⟩, -, written⟩)
    · exact runsOut
    · exact absurd written (free token (within.subset (by simp)))
  · exact .inl

theorem found_end_iff_sum :
    (∀ token ∈ (Lexer.ofSource "(+ 1 2").lexAll.tokens, token.lexeme ≠ "EOF") ∧
      RunsOut "(+ 1 2" ∧ ∀ token, ¬ Misplaced "(+ 1 2" token := by
  obtain ⟨-, exclusive, told⟩ := found_end_iff "(+ 1 2"
  have free : ∀ token ∈ (Lexer.ofSource "(+ 1 2").lexAll.tokens, token.lexeme ≠ "EOF" := by decide +kernel
  have parsed : parse "(+ 1 2" = .error ⟨.unexpectedEnd, 1⟩ := by decide +kernel
  have runsOut := (told free).mp ⟨_, parsed, rfl⟩
  exact ⟨free, runsOut, exclusive runsOut⟩

/-- Behind the operand of a negation a name is as wrong as any token but the closing parenthesis, and what
is reported of this one is what is reported of a text that lacks the parenthesis. -/
theorem found_end_ambiguous :
    (¬ ∀ source, (∃ error, parse source = .error error ∧ error.fault.found? = some "EOF") ↔
      RunsOut source) ∧
    ∃ error other, parse "(not #t EOF)" = .error error ∧ parse "(not #t" = .error other ∧
      error.fault.found? = other.fault.found? ∧ error.line = other.line ∧
      error.message = other.message ∧ ¬ RunsOut "(not #t EOF)" ∧ RunsOut "(not #t" := by
  have parsed : parse "(not #t EOF)" = .error ⟨.unexpectedToken "EOF", 1⟩ := by decide +kernel
  have parsed' : parse "(not #t" = .error ⟨.unexpectedEnd, 1⟩ := by decide +kernel
  have whole : ¬ RunsOut "(not #t EOF)" := by
    intro runsOut
    cases parsed.symm.trans (parse_eq_unexpectedEnd_iff.mpr ⟨runsOut, rfl⟩)
  refine ⟨fun claimed => whole ((claimed "(not #t EOF)").mp ⟨_, parsed, rfl⟩), _, _, parsed, parsed', rfl,
    rfl, rfl, whole, (parse_eq_unexpectedEnd_iff.mp parsed').1⟩

end TypedLisp
