import TypedLisp.Proofs.Reading.Depth
import TypedLisp.Proofs.Reading.Progress

/-! Whatever a reader has taken can be completed.

The tokens that a reader takes begin some program within the nesting limit: each
form that is open is given the parts it lacks as names, and closed, from the
innermost one outwards. A token that is refused for itself begins no program, since
a program is refused for its faults only.
-/

set_option autoImplicit false

namespace TypedLisp

open Grammar

/-- Some program within the nesting limit starts with these tokens. -/
def Grammar.Completable (tokens : List Token) : Prop :=
  ∃ later tree, Program (tokens ++ later) tree ∧ tree.nesting ≤ 128

/-- No program starts with these tokens, however deep it nests. -/
def Grammar.Hopeless (tokens : List Token) : Prop :=
  ∀ later tree, ¬ Program (tokens ++ later) tree

namespace Node

theorem program?_concat (earlier : List Node) (statement : Node) :
    ∃ tree, program? (earlier ++ [statement]) = some tree := by
  cases earlier <;> exact ⟨_, rfl⟩

mutual

theorem fault_of_mem_faultsFrom {depth : Nat} {called : Bool} {error : SourceError} :
    ∀ {node : Node}, error ∈ node.faultsFrom depth called →
      error.fault = .nestedTooDeep ∨ ∃ fault, error.fault = .illTyped fault
  | ⟨kind, valueType, line, leaves, children⟩, member => by
      have own : error ∈ (violation? ⟨kind, valueType, line, leaves, children⟩).toList →
          error.fault = .nestedTooDeep ∨ ∃ fault, error.fault = .illTyped fault := by
        intro violated
        obtain ⟨fault, -, rfl⟩ := violation?_eq_some_iff.mp (Option.mem_toList.mp violated)
        exact .inr ⟨fault, rfl⟩
      rw [faultsFrom] at member
      split at member
      · rcases List.mem_append.mp member with limit | member
        · split at limit
          · cases limit
          · cases List.mem_singleton.mp limit
            exact .inl rfl
        · rcases List.mem_append.mp member with below | violated
          · exact fault_of_mem_faultsAll below
          · exact own violated
      · rcases List.mem_append.mp member with below | violated
        · exact fault_of_mem_faultsAll below
        · exact own violated

theorem fault_of_mem_faultsAll {depth : Nat} {called : Bool} {error : SourceError} :
    ∀ {nodes : List Node}, error ∈ faultsAll depth called nodes →
      error.fault = .nestedTooDeep ∨ ∃ fault, error.fault = .illTyped fault
  | [], member => by cases member
  | _ :: _, member => by
      rcases List.mem_append.mp member with first | later
      · exact fault_of_mem_faultsFrom first
      · exact fault_of_mem_faultsAll later

end

end Node

namespace Reader

/-! ## Tokens to go on with -/

def nextOpening : Token := ⟨.leftParen, "(", 0⟩

def nextClosing : Token := ⟨.rightParen, ")", 0⟩

def nextFunction : Token := ⟨.function, "fun", 0⟩

def nextName : Token := ⟨.identifier, "x", 0⟩

def nextExpression : Node := .expression (.identifier "x" 0)

theorem nextOpening_kind : nextOpening.kind = .leftParen := rfl

theorem nextName_kind : nextName.kind = .identifier := rfl

theorem nextExpression_derives : Expression [nextName] nextExpression :=
  .identifier rfl

theorem nextExpression_nesting (room : Nat) : nextExpression.nesting ≤ room :=
  Nat.zero_le room

theorem many_nextExpression (count : Nat) :
    Many Expression (List.replicate count nextName) (List.replicate count nextExpression) := by
  induction count with
  | zero => exact .nil
  | succ count ih => exact .cons nextExpression_derives ih

/-! ## Forms -/

section
variable {room : Nat} {tokens : List Token}

theorem nesting_le_of_wrap {kind : NodeKind} (plain : kind.isPlain) {inner : Node}
    (fits : (Node.wrap kind inner).nesting ≤ room) : inner.nesting ≤ room :=
  Nat.le_trans (Nat.le_of_eq (Node.nestingFrom_wrap plain false inner).symm) fits

theorem nesting_le_of_test {condition : Node} (fits : (Node.wrap .test condition).nesting ≤ room) :
    condition.nesting ≤ room :=
  Nat.le_trans (Nat.le_of_eq (Node.nesting_test condition).symm) fits

theorem parens_nextClosing {opening : Token} (opens : opening.kind = .leftParen) :
    Parens opening nextClosing :=
  ⟨opens, rfl⟩

theorem Whole.Opened.completes {line : Nat} {whole : Whole} (opened : whole.Opened line tokens)
    (within : whole.Within room) :
    ∃ after node, Expression (tokens ++ after) node ∧ node.nesting ≤ room + 1 := by
  cases opened with
  | operation opens kind many takes =>
    refine ⟨[nextClosing], _, .operation (parens_nextClosing opens) kind many takes, ?_⟩
    rw [Node.nesting_expression]
    exact nesting_operation_le_iff.mpr within
  | conditional opens kind condition consequent alternative =>
    obtain ⟨tests, consequents, alternatives⟩ := within
    have closed :=
      Expression.conditional (parens_nextClosing opens) kind condition consequent alternative
    refine ⟨[nextClosing], _, by simpa using closed, ?_⟩
    rw [Node.nesting_expression]
    exact nesting_conditional_le_iff.mpr ⟨nesting_le_of_test tests,
      nesting_le_of_wrap rfl consequents, nesting_le_of_wrap rfl alternatives⟩
  | @function _ _ _ _ _ _ _ node role listParens names derives =>
    have fits : node.nesting ≤ room := nesting_le_of_wrap rfl within.2
    cases role with
    | expression opens kind =>
      have closed := Function.intro (parens_nextClosing opens) kind listParens names derives
      refine ⟨[nextClosing], _, by simpa using Expression.function closed, ?_⟩
      rw [Node.nesting_expression, Node.nesting, nestingFrom_function]
      exact Nat.succ_le_succ fits
    | callee calls opens kind =>
      -- One parenthesis closes the function, the other one its call.
      have closed := Function.intro (parens_nextClosing opens) kind listParens names derives
      have call := Expression.functionCall (parens_nextClosing calls) closed .nil
      refine ⟨[nextClosing, nextClosing], _, by simpa using call, ?_⟩
      rw [Node.nesting_expression]
      refine nesting_call_le_iff.mpr ⟨?_, List.forall_mem_nil _⟩
      rw [nestingFrom_function]
      exact fits
  | namedCall opens kind many =>
    refine ⟨[nextClosing], _, .namedCall (parens_nextClosing opens) kind many, ?_⟩
    rw [Node.nesting_expression]
    refine nesting_call_le_iff.mpr ⟨Nat.zero_le _, fun argument member => ?_⟩
    exact nesting_le_of_wrap rfl (within.2 _ (List.mem_map_of_mem member) false)
  | functionCall opens callee many =>
    have closed := Expression.functionCall (parens_nextClosing opens) callee many
    refine ⟨[nextClosing], _, by simpa using closed, ?_⟩
    rw [Node.nesting_expression]
    refine nesting_call_le_iff.mpr ⟨within.1, fun argument member => ?_⟩
    exact nesting_le_of_wrap rfl (within.2 _ (List.mem_map_of_mem member) false)

theorem Hole.Within.argument {callee expression : Node} {arguments : List Node}
    (within : (Hole.argument callee arguments).Within room) (fits : expression.nesting ≤ room) :
    (Hole.argument callee (.wrap .argument expression :: arguments)).Within room :=
  within.fill fits rfl

theorem Form.Opened.completes {form : Form} {body : List Token} {expression : Node}
    (opened : form.Opened tokens) (within : form.hole.Within room)
    (derives : Expression body expression) (fits : expression.nesting ≤ room) :
    ∃ (after : List Token) (whole : Whole), whole.Opened form.line (tokens ++ (body ++ after)) ∧
      whole.Within room := by
  have name := nextExpression_derives
  have wrapped {kind : NodeKind} (plain : kind.isPlain) : (Node.wrap kind expression).nesting ≤ room :=
    (Node.nestingFrom_wrap plain false expression).trans_le fits
  cases opened with
  | @operand opening head operator tokens operands opens kind many more =>
    -- As many names as a least number of operands asks for, so that a fixed number is met exactly.
    let missing := operator.arity - (operands.length + 1)
    let all := operands ++ [expression] ++ List.replicate missing nextExpression
    have longer : Many Expression _ all := (many.snoc derives).append (many_nextExpression missing)
    have takes : operator.Takes all.length := by
      rw [Operator.takes_iff]
      simp only [all, missing, List.length_append, List.length_singleton, List.length_replicate]
      rcases Operator.takesMore_iff.mp more with variadic | less
      · exact ⟨by omega, .inl variadic⟩
      · exact ⟨by omega, .inr (by omega)⟩
    refine ⟨List.replicate missing nextName, .operation operator all,
      by simpa using Whole.Opened.operation opens kind longer takes, fun operand member => ?_⟩
    simp only [all, List.append_assoc, List.mem_append, List.mem_singleton, List.mem_replicate]
      at member
    rcases member with earlier | rfl | ⟨-, rfl⟩
    · exact within operand (List.mem_reverse.mpr earlier)
    · exact fits
    · exact nextExpression_nesting room
  | condition opens kind =>
    refine ⟨[nextName, nextName], _, by simpa using Whole.Opened.conditional opens kind derives name name, ?_⟩
    exact ⟨(Node.nesting_test expression).trans_le fits, Nat.zero_le _, Nat.zero_le _⟩
  | thenBranch opens kind condition =>
    refine ⟨[nextName], _, by simpa using Whole.Opened.conditional opens kind condition derives name, ?_⟩
    exact ⟨within, wrapped rfl, Nat.zero_le _⟩
  | elseBranch opens kind condition consequent =>
    refine ⟨[], _, by simpa using Whole.Opened.conditional opens kind condition consequent derives, ?_⟩
    exact ⟨within.1, within.2, wrapped rfl⟩
  | body role listParens names =>
    refine ⟨[], _, by simpa using Whole.Opened.function role listParens names derives, ?_⟩
    exact ⟨within, wrapped rfl⟩
  | namedArgument opens kind many =>
    refine ⟨[], _, by simpa using Whole.Opened.namedCall opens kind (many.snoc derives), ?_⟩
    simpa using (within.argument fits).whole rfl
  | functionArgument opens callee many =>
    refine ⟨[], _, by simpa using Whole.Opened.functionCall opens callee (many.snoc derives), ?_⟩
    simpa using (within.argument fits).whole rfl

/-- From the innermost form outwards every form is closed, and then the statement. -/
theorem Context.Opened.completes {context : Context} {outer body : List Token} {expression : Node}
    (opened : context.Opened outer) (within : context.Within) (derives : Expression body expression)
    (fits : expression.nesting ≤ nestingLimit - context.forms.length) :
    ∃ after statement, Statement (outer ++ (body ++ after)) statement ∧
      statement.nesting ≤ nestingLimit := by
  induction opened generalizing body expression with
  | statement opened =>
    have wrapped (inner : Node) : (Node.wrap .statement inner).nesting = inner.nesting :=
      Node.nestingFrom_wrap rfl false inner
    cases opened with
    | bare =>
      refine ⟨[], _, by simpa using Statement.bare derives, ?_⟩
      rw [wrapped]
      exact fits
    | definition opens head name =>
      refine ⟨[nextClosing], _, .definition (parens_nextClosing opens) head name derives, ?_⟩
      rw [wrapped, nesting_definition]
      exact fits
    | printNum opens head =>
      refine ⟨[nextClosing], _, .printNum (parens_nextClosing opens) head derives, ?_⟩
      rw [wrapped, nesting_print rfl]
      exact fits
    | printBool opens head =>
      refine ⟨[nextClosing], _, .printBool (parens_nextClosing opens) head derives, ?_⟩
      rw [wrapped, nesting_print rfl]
      exact fits
  | @form statement form forms outer tokens _ opened ih =>
    obtain ⟨plain, room, hole, around⟩ := within
    have inner : expression.nesting ≤ roomWithin forms.length := fits
    obtain ⟨after, whole, opened, parts⟩ := opened.completes hole derives inner
    obtain ⟨after', node, derives', shallow⟩ := opened.completes parts
    have fits' : node.nesting ≤ nestingLimit - forms.length := by
      unfold roomWithin at shallow
      omega
    obtain ⟨after'', completed, derived, within⟩ := ih ⟨plain, around⟩ derives' fits'
    exact ⟨after ++ (after' ++ after''), completed, by simpa using derived, within⟩

theorem Context.Opened.completes_whole {context : Context} {outer : List Token} {line : Nat}
    {whole : Whole} (around : context.Opened outer) (within : context.HasRoom)
    (opened : whole.Opened line tokens) (parts : whole.Within (roomWithin context.forms.length)) :
    ∃ after statement, Statement (outer ++ (tokens ++ after)) statement ∧
      statement.nesting ≤ nestingLimit := by
  obtain ⟨after, node, derives, shallow⟩ := opened.completes parts
  have room := within.room
  have fits : node.nesting ≤ nestingLimit - context.forms.length := by
    unfold roomWithin at shallow
    omega
  obtain ⟨after', statement, derived, fits⟩ := around.completes within.toWithin derives fits
  exact ⟨after ++ after', statement, by simpa using derived, fits⟩

theorem Context.Opened.completes_head {context : Context} {outer : List Token} {opening : Token}
    (around : context.Opened outer) (within : context.HasRoom) (opens : opening.kind = .leftParen) :
    ∃ after statement, Statement (outer ++ opening :: after) statement ∧
      statement.nesting ≤ nestingLimit := by
  have whole := Whole.Opened.namedCall opens nextName_kind .nil
  obtain ⟨after, statement, derived, fits⟩ :=
    around.completes_whole within whole ⟨Nat.zero_le _, List.forall_mem_nil _⟩
  exact ⟨nextName :: after, statement, by simpa using derived, fits⟩

theorem Context.Opened.completes_parameters {context : Context} {outer parameters : List Token}
    {role : FunctionRole} {line : Nat} {listOpening : Token} (around : context.Opened outer)
    (within : context.HasRoom) (function : role.Opened line tokens)
    (opens : listOpening.kind = .leftParen)
    (names : ∀ token ∈ parameters, token.kind = .identifier) :
    ∃ after statement, Statement (outer ++ (tokens ++ listOpening :: (parameters ++ after))) statement ∧
      statement.nesting ≤ nestingLimit := by
  have opened := Whole.Opened.function function (parens_nextClosing opens) names nextExpression_derives
  have list := nestingFrom_parameters false listOpening.line parameters
  obtain ⟨after, statement, derived, fits⟩ := around.completes_whole within opened
    ⟨Nat.le_trans (Nat.le_of_eq list) (Nat.zero_le _), Nat.zero_le _⟩
  exact ⟨nextClosing :: nextName :: after, statement, by simpa using derived, fits⟩

/-! ## States -/

-- Each state is completed by the least that may follow it; a name stands for every expression to come.
theorem State.Holds.completes {state : State} (holds : state.Holds tokens) (within : state.Within) :
    ∃ after statement, Statement (tokens ++ after) statement ∧ statement.nesting ≤ nestingLimit := by
  have name := nextExpression_derives
  cases holds with
  | idle => exact ⟨[nextName], _, .bare name, Nat.zero_le _⟩
  | statementHead opens => exact (Context.Opened.statement .bare).completes_head bare_hasRoom opens
  | definedName opens head =>
    have defined := Statement.definition (parens_nextClosing opens) head nextName_kind name
    exact ⟨[nextName, nextName, nextClosing], _, by simpa using defined, Nat.zero_le _⟩
  | statementEnd ends =>
    refine ⟨[nextClosing], _, ends nextClosing rfl, ?_⟩
    exact (Node.nestingFrom_wrap rfl false _).trans_le within
  | inside opened =>
    obtain ⟨after, statement, derived, fits⟩ := opened.completes within name (Nat.zero_le _)
    exact ⟨nextName :: after, statement, derived, fits⟩
  | closing around opened =>
    simpa using around.completes_whole within.2 opened within.1
  | head around opens =>
    simpa using around.completes_head within opens
  | calleeHead around calls opens =>
    have role : FunctionRole.Opened _ _ [_, _, nextFunction] := .callee calls opens rfl
    obtain ⟨after, statement, derived, fits⟩ :=
      around.completes_parameters within role nextOpening_kind (List.forall_mem_nil _)
    exact ⟨nextFunction :: nextOpening :: after, statement, by simpa using derived, fits⟩
  | parametersStart around role =>
    obtain ⟨after, statement, derived, fits⟩ :=
      around.completes_parameters within role nextOpening_kind (List.forall_mem_nil _)
    exact ⟨nextOpening :: after, statement, by simpa using derived, fits⟩
  | parameters around role opens names =>
    obtain ⟨after, statement, derived, fits⟩ :=
      around.completes_parameters within.2 role opens names
    exact ⟨after, statement, by simpa using derived, fits⟩

end

theorem completable_of_feed {tokens : List Token} {last : Reader} (taken : start.feed tokens = .ok last) :
    Completable tokens := by
  have within := start_within.feed taken
  obtain ⟨earlier, current, rfl, many, holds⟩ := start_holds.feed taken
  obtain ⟨after, statement, derived, fits⟩ := holds.completes within.state
  obtain ⟨tree, program⟩ := Node.program?_concat last.statements.reverse statement
  refine ⟨after, tree, ⟨_, ?_, program⟩, (nesting_program?_le_iff program).mpr fun node member => ?_⟩
  · rw [List.append_assoc]
    exact many.snoc derived
  · rcases List.mem_append.mp member with read | last
    · exact within.statements node (List.mem_reverse.mp read)
    · cases List.mem_singleton.mp last
      exact fits

/-- Tokens up to one that is refused for itself begin no program, since those of a program are
refused for its faults only. -/
theorem hopeless_of_unexpected {before : List Token} {token : Token} {next : Reader} {found : String}
    {line : Nat} (taken : start.feed before = .ok next)
    (refused : next.step token = .error ⟨.unexpectedToken found, line⟩) :
    Hopeless (before ++ [token]) := by
  intro later tree program
  -- A program is read up to the first fault of its tree, and the refusal would be that fault.
  obtain ⟨last, -, read⟩ := program.reads
  rw [feed_append, feed_append, taken, ok_bind, feed_cons, refused] at read
  cases faults : tree.faultsFrom 0 false with
  | nil =>
    rw [faults] at read
    cases read
  | cons fault faults' =>
    rw [faults] at read
    have same : fault = ⟨.unexpectedToken found, line⟩ := (Except.error.inj read).symm
    have member : fault ∈ tree.faultsFrom 0 false := faults ▸ List.mem_cons_self
    rcases Node.fault_of_mem_faultsFrom member with deep | ⟨error, illTyped⟩
    · rw [same] at deep
      cases deep
    · rw [same] at illTyped
      cases illTyped

end Reader

/-! ## Texts -/

section
variable {source : String} {line : Nat}

theorem parse_eq_unexpectedToken {found : String}
    (parsed : parse source = .error ⟨.unexpectedToken found, line⟩) :
    ∃ before token, (Lexer.ofSource source).read.pulled = before ++ [token] ∧
      before ++ [token] <+: (Lexer.ofSource source).lexAll.tokens ∧
      token.lexeme = found ∧ token.line = line ∧
      Completable before ∧ Hopeless (before ++ [token]) := by
  obtain ⟨before, token, next, within, taken, refused, pulled⟩ := refusal_of_parse parsed rfl
  have own : Reader.Refuses next token ⟨.unexpectedToken found, line⟩ :=
    Reader.refuses_of_step refused
  cases own
  exact ⟨before, token, pulled, within, rfl, rfl, Reader.completable_of_feed taken,
    Reader.hopeless_of_unexpected taken refused⟩

theorem parse_eq_unexpectedEnd (parsed : parse source = .error ⟨.unexpectedEnd, line⟩) :
    ∃ tokens, tokenize source = .ok tokens ∧ Completable tokens ∧ ∀ tree, ¬ Program tokens tree := by
  rcases Reader.start.run_cases (.ofSource source) with ⟨last, taken, -⟩ |
    ⟨before, token, later, next, error, after, split, taken, refused, run, -⟩
  · rw [parse_eq_outcome] at parsed
    obtain read | ⟨last', read, ⟨lexical, -, lexically⟩ | ⟨intact, noProgram, -⟩⟩ :=
      Reader.outcome_eq_error_iff.mp parsed
    · cases taken.symm.trans read
    · cases lexically
    · cases taken.symm.trans read
      refine ⟨_, tokenize_eq_ok_iff.mpr ⟨intact, rfl⟩, Reader.completable_of_feed taken,
        fun tree program => ?_⟩
      obtain ⟨last', ended, read⟩ := program.reads
      rw [taken] at read
      obtain ⟨-, same⟩ := Reader.firstOr_eq_ok_iff.mp read.symm
      cases same
      cases noProgram.symm.trans ended
  · have read : (Lexer.ofSource source).read = ⟨.error error, before ++ [token], after⟩ := run
    rw [parse, read] at parsed
    cases Except.error.inj parsed
    cases Reader.refuses_of_step refused

end

/-- A syntax error is raised neither too early nor too late. -/
theorem parse_syntaxError_exact (source : String) (line : Nat) :
    (∀ found, parse source = .error ⟨.unexpectedToken found, line⟩ →
      ∃ before token, (Lexer.ofSource source).read.pulled = before ++ [token] ∧
        before ++ [token] <+: (Lexer.ofSource source).lexAll.tokens ∧
        token.lexeme = found ∧ token.line = line ∧
        (∃ later tree, Program (before ++ later) tree ∧ tree.nesting ≤ 128) ∧
        ∀ later tree, ¬ Program (before ++ [token] ++ later) tree) ∧
    (parse source = .error ⟨.unexpectedEnd, line⟩ →
      ∃ tokens, tokenize source = .ok tokens ∧
        (∃ later tree, Program (tokens ++ later) tree ∧ tree.nesting ≤ 128) ∧
        ∀ tree, ¬ Program tokens tree) :=
  ⟨fun _ => parse_eq_unexpectedToken, parse_eq_unexpectedEnd⟩

theorem parse_syntaxError_exact_operand :
    (∃ before token, (Lexer.ofSource "(+ 1)").read.pulled = before ++ [token] ∧
      token.lexeme = ")" ∧ (∃ later tree, Program (before ++ later) tree ∧ tree.nesting ≤ 128) ∧
      ∀ later tree, ¬ Program (before ++ [token] ++ later) tree) ∧
    ∃ tokens, tokenize "(+ 1" = .ok tokens ∧
      (∃ later tree, Program (tokens ++ later) tree ∧ tree.nesting ≤ 128) ∧
      ∀ tree, ¬ Program tokens tree := by
  refine ⟨?_, (parse_syntaxError_exact "(+ 1" 1).2 (by decide +kernel)⟩
  obtain ⟨before, token, pulled, -, found, -, completes, hopeless⟩ :=
    (parse_syntaxError_exact "(+ 1)" 1).1 ")" (by decide +kernel)
  exact ⟨before, token, pulled, found, completes, hopeless⟩

end TypedLisp
