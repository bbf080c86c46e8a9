import TypedLisp.Proofs.Reading.Completeness

/-! What the state of a reader says about the tokens read.

Each part of a state stands for tokens that begin a phrase of the grammar: a
statement, the forms around each other in it, and the form at its start or its
end. One token more keeps the state in step with the tokens, so whatever a reader
has completed was derived by them.
-/

set_option autoImplicit false

namespace TypedLisp

open Grammar

namespace Reader

/-! ## Tokens of unfinished phrases -/

/-- The tokens before the outermost expression of a statement. -/
inductive StatementHole.Opened : StatementHole → List Token → Prop
  | bare : Opened .bare []
  | definition {opening head name : Token} : opening.kind = .leftParen → head.kind = .define →
      name.kind = .identifier →
      Opened (.definition opening.line (.wrap .definedName (.identifier name.lexeme name.line)))
        [opening, head, name]
  | printNum {opening head : Token} : opening.kind = .leftParen → head.kind = .printNum →
      Opened (.print opening.line .printNum head.lexeme) [opening, head]
  | printBool {opening head : Token} : opening.kind = .leftParen → head.kind = .printBool →
      Opened (.print opening.line .printBool head.lexeme) [opening, head]

inductive FunctionRole.Opened : FunctionRole → Nat → List Token → Prop
  | expression {opening head : Token} : opening.kind = .leftParen → head.kind = .function →
      Opened .expression opening.line [opening, head]
  | callee {call opening head : Token} : call.kind = .leftParen → opening.kind = .leftParen →
      head.kind = .function → Opened (.callee call.line) opening.line [call, opening, head]

/-- The tokens of a form before the expression it waits for. -/
inductive Form.Opened : Form → List Token → Prop
  | operand {opening head : Token} {operator : Operator} {tokens : List Token}
      {operands : List Node} : opening.kind = .leftParen → head.kind = .operator operator →
      Many Expression tokens operands → operator.takesMore operands.length →
      Opened ⟨opening.line, .operand operator operands.reverse⟩ (opening :: head :: tokens)
  | condition {opening head : Token} : opening.kind = .leftParen → head.kind = .conditional →
      Opened ⟨opening.line, .condition⟩ [opening, head]
  | thenBranch {opening head : Token} {tests : List Token} {condition : Node} :
      opening.kind = .leftParen → head.kind = .conditional → Expression tests condition →
      Opened ⟨opening.line, .thenBranch (.wrap .test condition)⟩ (opening :: head :: tests)
  | elseBranch {opening head : Token} {tests consequents : List Token}
      {condition consequent : Node} :
      opening.kind = .leftParen → head.kind = .conditional → Expression tests condition →
      Expression consequents consequent →
      Opened ⟨opening.line, .elseBranch (.wrap .test condition) (.wrap .consequent consequent)⟩
        (opening :: head :: (tests ++ consequents))
  | body {role : FunctionRole} {line : Nat} {tokens parameters : List Token}
      {listOpening listClosing : Token} : role.Opened line tokens →
      Parens listOpening listClosing → (∀ token ∈ parameters, token.kind = .identifier) →
      Opened ⟨line, .body role (.gather .parameterList listOpening.line (parameters.map parameter))⟩
        (tokens ++ listOpening :: (parameters ++ [listClosing]))
  | namedArgument {opening name : Token} {tokens : List Token} {arguments : List Node} :
      opening.kind = .leftParen → name.kind = .identifier → Many Expression tokens arguments →
      Opened ⟨opening.line, .argument (calleeName name) (arguments.map (.wrap .argument)).reverse⟩
        (opening :: name :: tokens)
  | functionArgument {opening : Token} {callee tokens : List Token} {function : Node}
      {arguments : List Node} : opening.kind = .leftParen → Function Expression callee function →
      Many Expression tokens arguments →
      Opened ⟨opening.line, .argument function (arguments.map (.wrap .argument)).reverse⟩
        (opening :: (callee ++ tokens))

inductive Whole.Opened : Nat → Whole → List Token → Prop
  | operation {opening head : Token} {operator : Operator} {tokens : List Token}
      {operands : List Node} : opening.kind = .leftParen → head.kind = .operator operator →
      Many Expression tokens operands → operator.Takes operands.length →
      Opened opening.line (.operation operator operands) (opening :: head :: tokens)
  | conditional {opening head : Token} {tests consequents alternatives : List Token}
      {condition consequent alternative : Node} :
      opening.kind = .leftParen → head.kind = .conditional → Expression tests condition →
      Expression consequents consequent → Expression alternatives alternative →
      Opened opening.line
        (.conditional (.wrap .test condition) (.wrap .consequent consequent)
          (.wrap .alternative alternative))
        (opening :: head :: (tests ++ (consequents ++ alternatives)))
  | function {role : FunctionRole} {line : Nat} {tokens parameters body : List Token}
      {listOpening listClosing : Token} {node : Node} : role.Opened line tokens →
      Parens listOpening listClosing → (∀ token ∈ parameters, token.kind = .identifier) →
      Expression body node →
      Opened line
        (.function role (.gather .parameterList listOpening.line (parameters.map parameter))
          (.wrap .body node))
        (tokens ++ listOpening :: (parameters ++ listClosing :: body))
  | namedCall {opening name : Token} {tokens : List Token} {arguments : List Node} :
      opening.kind = .leftParen → name.kind = .identifier → Many Expression tokens arguments →
      Opened opening.line (.call (calleeName name) (arguments.map (.wrap .argument)))
        (opening :: name :: tokens)
  | functionCall {opening : Token} {callee tokens : List Token} {function : Node}
      {arguments : List Node} : opening.kind = .leftParen → Function Expression callee function →
      Many Expression tokens arguments →
      Opened opening.line (.call function (arguments.map (.wrap .argument)))
        (opening :: (callee ++ tokens))

/-- The tokens of a statement before an expression in it. -/
inductive Context.Opened : Context → List Token → Prop
  | statement {statement : StatementHole} {tokens : List Token} : statement.Opened tokens →
      Opened ⟨statement, []⟩ tokens
  | form {statement : StatementHole} {form : Form} {forms : List Form}
      {outer tokens : List Token} : Opened ⟨statement, forms⟩ outer → form.Opened tokens →
      Opened ⟨statement, form :: forms⟩ (outer ++ tokens)

inductive State.Holds : State → List Token → Prop
  | idle : Holds .idle []
  | statementHead {opening : Token} : opening.kind = .leftParen →
      Holds (.statementHead opening.line) [opening]
  | definedName {opening head : Token} : opening.kind = .leftParen → head.kind = .define →
      Holds (.definedName opening.line) [opening, head]
  -- The parenthesis that closes the statement is still to come, so any of them will do.
  | statementEnd {body : Node} {tokens : List Token} :
      (∀ closing : Token, closing.kind = .rightParen →
        Statement (tokens ++ [closing]) (.wrap .statement body)) →
      Holds (.statementEnd body) tokens
  | inside {context : Context} {tokens : List Token} : context.Opened tokens →
      Holds (.inside context) tokens
  | closing {line : Nat} {whole : Whole} {context : Context} {outer tokens : List Token} :
      context.Opened outer → whole.Opened line tokens →
      Holds (.closing line whole context) (outer ++ tokens)
  | head {opening : Token} {context : Context} {outer : List Token} : context.Opened outer →
      opening.kind = .leftParen → Holds (.head opening.line context) (outer ++ [opening])
  | calleeHead {call opening : Token} {context : Context} {outer : List Token} :
      context.Opened outer → call.kind = .leftParen → opening.kind = .leftParen →
      Holds (.calleeHead call.line opening.line context) (outer ++ [call, opening])
  | parametersStart {role : FunctionRole} {line : Nat} {context : Context}
      {outer tokens : List Token} : context.Opened outer → role.Opened line tokens →
      Holds (.parametersStart role line context) (outer ++ tokens)
  | parameters {role : FunctionRole} {line : Nat} {listOpening : Token} {context : Context}
      {outer tokens parameters : List Token} : context.Opened outer → role.Opened line tokens →
      listOpening.kind = .leftParen → (∀ token ∈ parameters, token.kind = .identifier) →
      Holds (.parameters role line listOpening.line (parameters.map parameter).reverse context)
        (outer ++ (tokens ++ listOpening :: parameters))

end Reader

/-- The statements read and the state come from these tokens. -/
def Reader.Holds (reader : Reader) (tokens : List Token) : Prop :=
  ∃ earlier current, tokens = earlier ++ current ∧
    Many Statement earlier reader.statements.reverse ∧ reader.state.Holds current

namespace Reader

/-! ## Filling holes and closing forms -/

inductive Filled.Opened (line : Nat) : Filled → List Token → Prop
  | hole {hole : Hole} {tokens : List Token} : Form.Opened ⟨line, hole⟩ tokens →
      Opened line (.hole hole) tokens
  | whole {whole : Whole} {tokens : List Token} : whole.Opened line tokens →
      Opened line (.whole whole) tokens

inductive Closed.Derived : Closed → List Token → Prop
  | node {node : Node} {tokens : List Token} : Expression tokens (.expression node) →
      Derived (.node node) tokens
  | callee {call : Token} {function : Node} {tokens : List Token} : call.kind = .leftParen →
      Function Expression tokens function → Derived (.callee call.line function) (call :: tokens)

theorem Form.Opened.fill {form : Form} {tokens body : List Token} {expression : Node}
    {filled : Filled} (opened : form.Opened tokens) (derives : Expression body expression)
    (taken : form.hole.fill expression = .ok filled) : filled.Opened form.line (tokens ++ body) := by
  cases opened with
  | @operand opening head operator tokens operands opens kind many more =>
    simp only [Hole.fill] at taken
    have longer := many.snoc derives
    have reversed : expression :: operands.reverse = (operands ++ [expression]).reverse := by simp
    split at taken
    next more' =>
      cases taken
      rw [reversed]
      exact .hole (.operand opens kind longer (by simpa using more'))
    next full =>
      -- The operator took more before this operand and takes none after it, so the count is its arity.
      cases taken
      rw [reversed, List.reverse_reverse]
      refine .whole (.operation opens kind longer (Operator.takes_iff.mpr ?_))
      rw [Operator.takesMore_iff] at more full
      simp only [List.length_cons, List.length_reverse, not_or] at full
      simp only [List.length_append, List.length_singleton]
      have less := more.resolve_left full.1
      exact ⟨by omega, .inr less⟩
  | condition opens kind =>
    obtain ⟨-, rfl⟩ := Hole.condition_fill_eq_ok_iff.mp taken
    exact .hole (.thenBranch opens kind derives)
  | thenBranch opens kind condition =>
    cases taken
    exact .hole (.elseBranch opens kind condition derives)
  | elseBranch opens kind condition consequent =>
    cases taken
    exact .whole (by simpa using Whole.Opened.conditional opens kind condition consequent derives)
  | body role listParens names =>
    cases taken
    exact .whole (by simpa using Whole.Opened.function role listParens names derives)
  | namedArgument opens kind many =>
    cases taken
    exact .hole (by simpa using Form.Opened.namedArgument opens kind (many.snoc derives))
  | functionArgument opens callee many =>
    cases taken
    exact .hole (by simpa using Form.Opened.functionArgument opens callee (many.snoc derives))

theorem Form.Opened.whole {form : Form} {tokens : List Token} {whole : Whole}
    (opened : form.Opened tokens) (closable : form.hole.whole? = some whole) :
    whole.Opened form.line tokens := by
  cases opened with
  | @operand opening head operator tokens operands opens kind many more =>
    simp only [Hole.whole?, List.length_reverse, List.reverse_reverse] at closable
    split at closable
    next saturated =>
      cases closable
      refine .operation opens kind many (Operator.takes_iff.mpr ?_)
      have enough : operator.arity ≤ operands.length := by simpa [Operator.isSaturated] using saturated
      exact ⟨enough, (Operator.takesMore_iff.mp more).imp_right fun less => by omega⟩
    next => cases closable
  | namedArgument opens kind many =>
    cases closable
    simpa using Whole.Opened.namedCall opens kind many
  | functionArgument opens callee many =>
    cases closable
    simpa using Whole.Opened.functionCall opens callee many
  | condition | thenBranch | elseBranch | body => cases closable

theorem Whole.Opened.close {line : Nat} {whole : Whole} {tokens : List Token} {closing : Token}
    {closed : Closed} (opened : whole.Opened line tokens) (closes : closing.kind = .rightParen)
    (taken : whole.close line closing.line = .ok closed) : closed.Derived (tokens ++ [closing]) := by
  cases opened with
  | @operation opening head operator tokens operands opens kind many takes =>
    have single : ∀ operand ∈ operands, operand.kind ≠ .expressionList :=
      many.forall_mem fun derives => by simp [derives.kind_eq]
    -- The operands are grouped as the grammar groups them; that their rules hold is of no matter here.
    rw [Whole.close, applyOperator_eq operator opening.line single] at taken
    have inOrder := firstOr_eq_ok_iff.mp ((firstOr_bind _).symm.trans taken)
    cases inOrder.2
    exact .node (.operation ⟨opens, closes⟩ kind many takes)
  | conditional opens kind condition consequent alternative =>
    cases taken
    refine .node ?_
    simp only [List.cons_append, List.append_assoc]
    exact .conditional ⟨opens, closes⟩ kind condition consequent alternative
  | function role listParens names body =>
    cases role with
    | expression opens kind =>
      cases taken
      simp only [List.cons_append, List.nil_append, List.append_assoc]
      exact .node (.function (.intro ⟨opens, closes⟩ kind listParens names body))
    | callee calls opens kind =>
      cases taken
      simp only [List.cons_append, List.nil_append, List.append_assoc]
      exact .callee calls (.intro ⟨opens, closes⟩ kind listParens names body)
  | namedCall opens kind many =>
    cases taken
    exact .node (.namedCall ⟨opens, closes⟩ kind many)
  | functionCall opens callee many =>
    cases taken
    refine .node ?_
    simp only [List.cons_append, List.append_assoc]
    exact .functionCall ⟨opens, closes⟩ callee many

/-! ## One step -/

section
variable {reader next : Reader} {earlier : List Token}

theorem Holds.become {state : State} {current : List Token}
    (many : Many Statement earlier reader.statements.reverse) (holds : state.Holds current) :
    (reader.become state).Holds (earlier ++ current) :=
  ⟨earlier, current, rfl, many, holds⟩

theorem Holds.complete {body : Node} {current : List Token}
    (many : Many Statement earlier reader.statements.reverse)
    (derives : Statement current (.wrap .statement body)) :
    (reader.complete body).Holds (earlier ++ current) := by
  refine ⟨earlier ++ current, [], (List.append_nil _).symm, ?_, .idle⟩
  simpa [Reader.complete] using many.snoc derives

theorem Holds.fill {context : Context} {outer tokens : List Token} {expression : Node}
    (many : Many Statement earlier reader.statements.reverse) (opened : context.Opened outer)
    (derives : Expression tokens expression) (taken : reader.fill context expression = .ok next) :
    next.Holds (earlier ++ (outer ++ tokens)) := by
  cases opened with
  | statement opened =>
    cases opened with
    | bare =>
      cases taken
      exact .complete many (.bare derives)
    | definition opens head name =>
      cases taken
      refine .become many (.statementEnd fun closing closes => ?_)
      exact .definition ⟨opens, closes⟩ head name derives
    | printNum opens head =>
      cases taken
      refine .become many (.statementEnd fun closing closes => ?_)
      exact .printNum ⟨opens, closes⟩ head derives
    | printBool opens head =>
      cases taken
      refine .become many (.statementEnd fun closing closes => ?_)
      exact .printBool ⟨opens, closes⟩ head derives
  | form around inner =>
    rw [List.append_assoc]
    simp only [Reader.fill] at taken
    split at taken
    next => cases taken
    next hole filled =>
      cases taken
      cases inner.fill derives filled with
      | hole opened => exact .become many (.inside (.form around opened))
    next whole filled =>
      cases taken
      cases inner.fill derives filled with
      | whole opened => exact .become many (.closing around opened)

theorem Holds.close {line : Nat} {whole : Whole} {context : Context} {outer tokens : List Token}
    {closing : Token} (many : Many Statement earlier reader.statements.reverse)
    (opened : context.Opened outer) (form : whole.Opened line tokens)
    (closes : closing.kind = .rightParen)
    (taken : reader.close line whole context closing.line = .ok next) :
    next.Holds (earlier ++ (outer ++ (tokens ++ [closing]))) := by
  simp only [Reader.close] at taken
  split at taken
  next => cases taken
  next node closed =>
    cases form.close closes closed with
    | node derives => exact .fill many opened derives taken
  next callLine function closed =>
    cases taken
    have derived := form.close closes closed
    generalize tokens ++ [closing] = form at derived ⊢
    cases derived with
    | callee calls derives =>
      refine .become many (.inside (.form opened ?_))
      simpa using Form.Opened.functionArgument calls derives .nil

theorem Holds.begin {context : Context} {outer : List Token} {token : Token}
    (many : Many Statement earlier reader.statements.reverse) (opened : context.Opened outer)
    (taken : reader.begin context token = .ok next) : next.Holds (earlier ++ (outer ++ [token])) := by
  unfold Reader.begin at taken
  split at taken
  next kind => exact .fill many opened (.number kind) taken
  next kind => exact .fill many opened (.boolean kind) taken
  next kind => exact .fill many opened (.identifier kind) taken
  next kind =>
    split at taken
    · cases taken
      exact .become many (.head opened kind)
    · cases taken
  next => cases taken

theorem Holds.openForm {context : Context} {outer : List Token} {opening token : Token}
    (many : Many Statement earlier reader.statements.reverse) (opened : context.Opened outer)
    (opens : opening.kind = .leftParen)
    (taken : reader.openForm opening.line context token = .ok next) :
    next.Holds (earlier ++ (outer ++ [opening, token])) := by
  unfold Reader.openForm at taken
  split at taken
  next operator kind =>
    cases taken
    have more : operator.takesMore ([] : List Node).length := by cases operator <;> rfl
    exact .become many (.inside (.form opened (.operand opens kind .nil more)))
  next kind =>
    cases taken
    exact .become many (.inside (.form opened (.condition opens kind)))
  next kind =>
    cases taken
    exact .become many (.parametersStart opened (.expression opens kind))
  next kind =>
    cases taken
    exact .become many (.calleeHead opened opens kind)
  next kind =>
    cases taken
    exact .become many (.inside (.form opened (.namedArgument opens kind .nil)))
  next => cases taken

theorem Holds.addParameter {role : FunctionRole} {line : Nat} {context : Context}
    {outer tokens parameters : List Token} {listOpening token : Token}
    (many : Many Statement earlier reader.statements.reverse) (opened : context.Opened outer)
    (function : role.Opened line tokens) (opens : listOpening.kind = .leftParen)
    (names : ∀ parameter ∈ parameters, parameter.kind = .identifier)
    (kind : token.kind = .identifier) :
    (reader.become (.parameters role line listOpening.line
      (parameter token :: (parameters.map parameter).reverse) context)).Holds
      (earlier ++ (outer ++ (tokens ++ listOpening :: (parameters ++ [token])))) := by
  have longer : ∀ parameter ∈ parameters ++ [token], parameter.kind = .identifier :=
    List.forall_mem_append.mpr ⟨names, List.forall_mem_singleton.mpr kind⟩
  have reversed : parameter token :: (parameters.map parameter).reverse =
      ((parameters ++ [token]).map parameter).reverse := by simp
  rw [reversed]
  exact .become many (.parameters opened function opens longer)

theorem Holds.endParameters {role : FunctionRole} {line : Nat} {context : Context}
    {outer tokens parameters : List Token} {listOpening listClosing : Token}
    (many : Many Statement earlier reader.statements.reverse) (opened : context.Opened outer)
    (function : role.Opened line tokens) (listParens : Parens listOpening listClosing)
    (names : ∀ parameter ∈ parameters, parameter.kind = .identifier) :
    (reader.become (.inside (context.enter line
      (.body role (.gather .parameterList listOpening.line (parameters.map parameter)))))).Holds
      (earlier ++ (outer ++ (tokens ++ listOpening :: (parameters ++ [listClosing])))) :=
  .become many (.inside (.form opened (.body function listParens names)))

/-- Every token keeps the reader in step with the tokens. -/
theorem Holds.step {tokens : List Token} {token : Token} (holds : reader.Holds tokens)
    (taken : reader.step token = .ok next) : next.Holds (tokens ++ [token]) := by
  obtain ⟨earlier, current, rfl, many, holds⟩ := holds
  have moved := moves_of_step taken
  rw [List.append_assoc]
  generalize reader.state = state at holds moved
  -- What the state holds of and how the token is taken fit together in one way for each move.
  cases moved with
  | opening kind =>
    cases holds
    exact .become many (.statementHead kind)
  | bare noOpening begun =>
    cases holds
    exact .begin many (.statement .bare) begun
  | define kind =>
    cases holds with
    | statementHead opens => exact .become many (.definedName opens kind)
  | printNum kind =>
    cases holds with
    | statementHead opens => exact .become many (.inside (.statement (.printNum opens kind)))
  | printBool kind =>
    cases holds with
    | statementHead opens => exact .become many (.inside (.statement (.printBool opens kind)))
  | statementForm opened =>
    cases holds with
    | statementHead opens => exact .openForm many (.statement .bare) opens opened
  | definedName kind =>
    cases holds with
    | definedName opens head =>
      exact .become many (.inside (.statement (.definition opens head kind)))
  | statementEnd kind =>
    cases holds with
    | statementEnd ends => exact .complete many (ends token kind)
  | part begun =>
    cases holds with
    | inside opened => exact .begin many opened begun
  | innermost kind closable closed =>
    cases holds with
    | inside opened =>
      -- The innermost form closes here, with no more parts than it has.
      cases opened with
      | form around opened =>
        rw [List.append_assoc]
        exact .close many around (opened.whole closable) kind closed
  | closing kind closed =>
    cases holds with
    | closing opened form =>
      rw [List.append_assoc]
      exact .close many opened form kind closed
  | head formOpened =>
    cases holds with
    | head opened opens =>
      rw [List.append_assoc]
      exact .openForm many opened opens formOpened
  | callee kind =>
    cases holds with
    | calleeHead opened calls opens =>
      rw [List.append_assoc]
      exact .become many (.parametersStart opened (.callee calls opens kind))
  | parametersOpening kind =>
    cases holds with
    | parametersStart opened role =>
      rw [List.append_assoc]
      exact .become many (.parameters opened role kind (List.forall_mem_nil _))
  | parameter kind =>
    cases holds with
    | parameters opened role opens names =>
      simp only [List.append_assoc, List.cons_append]
      exact .addParameter many opened role opens names kind
  | parametersClosing kind =>
    cases holds with
    | parameters opened role opens names =>
      simp only [List.append_assoc, List.cons_append, List.reverse_reverse]
      exact .endParameters many opened role ⟨opens, kind⟩ names

/-! ## Runs -/

theorem Holds.feed {tokens later : List Token} (holds : reader.Holds tokens)
    (taken : reader.feed later = .ok next) : next.Holds (tokens ++ later) := by
  refine feed_induction (fun later reader => reader.Holds (tokens ++ later))
    (by rwa [List.append_nil]) (fun holds stepped => ?_) taken
  rw [← List.append_assoc]
  exact holds.step stepped

theorem start_holds : start.Holds [] :=
  ⟨[], [], rfl, .nil, .idle⟩

end

theorem program_of_feed {tokens : List Token} {last : Reader} {tree : Node}
    (taken : start.feed tokens = .ok last) (ended : last.program? = some tree) :
    Program tokens tree := by
  obtain ⟨earlier, current, rfl, many, holds⟩ := start_holds.feed taken
  unfold program? at ended
  split at ended
  next state =>
    rw [state] at holds
    cases holds
    exact ⟨last.statements.reverse, by simpa using many, ended⟩
  next => cases ended

end Reader

end TypedLisp
