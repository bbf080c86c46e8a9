import TypedLisp.Proofs.Reading.Faults

/-! Reading the tokens of a derivation.

Each derivation is read to the outcome that its tree determines, whatever else the
reader holds: the first fault of the tree, or the tree in its place. So no
derivation is refused for a token, and what decides is types and nesting alone.
-/

set_option autoImplicit false

namespace TypedLisp

open Grammar

theorem Operator.takes_iff {operator : Operator} {count : Nat} :
    operator.Takes count ↔
      operator.arity ≤ count ∧ (operator.variadic ∨ count ≤ operator.arity) := by
  cases operator <;> simp only [Takes, arity, variadic] <;> grind

theorem Operator.takesMore_iff {operator : Operator} {count : Nat} :
    operator.takesMore count ↔ operator.variadic ∨ count < operator.arity := by
  simp [takesMore]

namespace Reader

/-! ## Filling holes and closing forms -/

section
variable (reader : Reader) (context : Context) (line : Nat)

/-- An operator with some operands read, the latest first: complete as soon as it takes no more. -/
def operandState (operator : Operator) (operands : List Node) (line : Nat) (context : Context) :
    State :=
  if operator.takesMore operands.length then .inside (context.enter line (.operand operator operands))
  else .closing line (.operation operator operands.reverse) context

theorem fill_operand (operator : Operator) (operands : List Node) (expression : Node) :
    reader.fill (context.enter line (.operand operator operands)) expression =
      .ok (reader.become (operandState operator (expression :: operands) line context)) := by
  by_cases more : operator.takesMore (expression :: operands).length
  · simp only [fill, Context.enter, Hole.fill, operandState, if_pos more]
  · simp only [fill, Context.enter, Hole.fill, operandState, if_neg more]

theorem fill_condition (condition : Node) :
    reader.fill (context.enter line .condition) condition =
      firstOr (Node.wrap .test condition).violation?.toList
        (.ok (reader.become (.inside (context.enter line (.thenBranch (.wrap .test condition)))))) := by
  have rule : (Node.wrap .test condition).rule =
      expectClass "if test expr" .boolean [condition.operand] := rfl
  simp only [fill, Context.enter, Hole.fill, Node.test, Node.violation?, rule]
  cases expectClass "if test expr" .boolean [condition.operand] <;> rfl

theorem close_operation (operator : Operator) {operands : List Node} (closeLine : Nat)
    (single : ∀ operand ∈ operands, operand.kind ≠ .expressionList) :
    reader.close line (.operation operator operands) context closeLine =
      firstOr (listFaults operator operands ++ (operation operator operands line).violation?.toList)
        (reader.fill context (.expression (operation operator operands line))) := by
  simp only [close, Whole.close, applyOperator_eq operator line single]
  cases listFaults operator operands ++ (operation operator operands line).violation?.toList <;> rfl

theorem step_operandState {operator : Operator} {operands : List Node} {closing : Token}
    (takes : operator.Takes operands.length) (closes : closing.kind = .rightParen) :
    (reader.become (operandState operator operands.reverse line context)).step closing =
      reader.close line (.operation operator operands) context closing.line := by
  obtain ⟨saturated, -⟩ := Operator.takes_iff.mp takes
  have enough : operator.isSaturated operands.length := by simpa [Operator.isSaturated] using saturated
  unfold operandState
  split
  · have whole : (Hole.operand operator operands.reverse).whole? =
        some (.operation operator operands) := by
      simp [Hole.whole?, enough]
    simp only [step, state_become, closes, Context.enter, whole, close_become]
  · simp only [step, state_become, closes, List.reverse_reverse, close_become]

end

/-! ## Derivations -/

/-- A reader reports the first fault of a tree, or takes the tree, on reading these tokens. -/
def Reads (tokens : List Token) (tree : Node) : Prop :=
  ∀ {reader : Reader} {context : Context}, Awaits reader context →
    reader.feed tokens =
      firstOr (tree.faultsFrom context.forms.length false) (reader.fill context tree)

theorem Reads.inside {tokens : List Token} {tree : Node} (reads : Reads tokens tree)
    (reader : Reader) (context : Context) :
    (reader.become (.inside context)).feed tokens =
      firstOr (tree.faultsFrom context.forms.length false) (reader.fill context tree) :=
  reads (.inside rfl)

section
variable (reader : Reader) (context : Context) (line : Nat) {tokens : List Token}

-- Every count short of the last must leave room for another operand; after the last one an operator
-- that is not variadic waits for its parenthesis only, so nothing is asked of that count.
theorem feed_operands (operator : Operator) {operands : List Node} (many : Many Reads tokens operands) :
    ∀ read : List Node,
      (∀ fewer < read.length + operands.length, operator.takesMore fewer) →
      (reader.become (operandState operator read line context)).feed tokens =
        firstOr (Node.faultsAll (context.forms.length + 1) false operands)
          (.ok (reader.become (operandState operator (operands.reverse ++ read) line context))) := by
  induction many with
  | nil => intro read more; rfl
  | @cons first rest node nodes reads _ ih =>
    intro read more
    rw [List.length_cons] at more
    have state : (reader.become (operandState operator read line context)).state =
        .inside (context.enter line (.operand operator read)) :=
      if_pos (more read.length (by omega))
    have others := ih (node :: read) (by rw [List.length_cons]; exact fun fewer less => more fewer (by omega))
    rw [feed_append, reads (.inside state)]
    simp [fill_operand, others]

theorem feed_arguments {arguments : List Node} (callee : Node) (many : Many Reads tokens arguments) :
    ∀ read : List Node,
      (reader.become (.inside (context.enter line (.argument callee read)))).feed tokens =
        firstOr (Node.faultsAll (context.forms.length + 1) false arguments)
          (.ok (reader.become (.inside (context.enter line
            (.argument callee ((arguments.map (.wrap .argument)).reverse ++ read)))))) := by
  induction many with
  | nil => intro read; rfl
  | @cons first rest node nodes reads _ ih =>
    intro read
    have fill : reader.fill (context.enter line (.argument callee read)) node =
        .ok (reader.become (.inside (context.enter line
          (.argument callee (.wrap .argument node :: read))))) :=
      rfl
    rw [feed_append, reads.inside]
    simp [fill, ih]

theorem feed_parameters (role : FunctionRole) (listLine : Nat) {parameters : List Token}
    (names : ∀ token ∈ parameters, token.kind = .identifier) :
    ∀ read : List Node,
      (reader.become (.parameters role line listLine read context)).feed parameters =
        .ok (reader.become
          (.parameters role line listLine ((parameters.map parameter).reverse ++ read) context)) := by
  induction parameters with
  | nil => intro read; rfl
  | cons token tokens ih =>
    intro read
    rw [List.forall_mem_cons] at names
    have taken : (reader.become (.parameters role line listLine read context)).step token =
        .ok (reader.become (.parameters role line listLine (parameter token :: read) context)) := by
      simp only [step, state_become, names.1]
      rfl
    simp [taken, ih names.2]

end

theorem feed_functionBody (reader : Reader) (context : Context) (line : Nat) (role : FunctionRole)
    {listOpening listClosing closing : Token} {parameters body : List Token} {node : Node}
    (listParens : Parens listOpening listClosing)
    (names : ∀ token ∈ parameters, token.kind = .identifier) (reads : Reads body node)
    (closes : closing.kind = .rightParen) :
    (reader.become (.parametersStart role line context)).feed
        (listOpening :: (parameters ++ listClosing :: (body ++ [closing]))) =
      firstOr (node.faultsFrom (context.forms.length + 1) false)
        (reader.close line
          (.function role (.gather .parameterList listOpening.line (parameters.map parameter))
            (.wrap .body node)) context closing.line) := by
  let collected := Node.gather .parameterList listOpening.line (parameters.map parameter)
  have opened : (reader.become (.parametersStart role line context)).step listOpening =
      .ok (reader.become (.parameters role line listOpening.line [] context)) := by
    simp only [step, state_become, listParens.opens]
    rfl
  have gathered : (reader.become (.parameters role line listOpening.line
        (parameters.map parameter).reverse context)).step listClosing =
      .ok (reader.become (.inside (context.enter line (.body role collected)))) := by
    simp only [step, state_become, listParens.closes, List.reverse_reverse]
    rfl
  have filled : reader.fill (context.enter line (.body role collected)) node =
      .ok (reader.become (.closing line (.function role collected (.wrap .body node)) context)) := rfl
  have closed : (reader.become (.closing line (.function role collected (.wrap .body node))
        context)).step closing =
      reader.close line (.function role collected (.wrap .body node)) context closing.line := by
    simp only [step, state_become, closes]
    rfl
  have read := feed_parameters reader context line role listOpening.line names []
  rw [List.append_nil] at read
  simp only [feed_cons, feed_append, opened, ok_bind, read, gathered]
  simp [reads.inside, filled, closed, collected]

theorem feed_callArguments (reader : Reader) (context : Context) (line : Nat) (callee : Node)
    {closing : Token} {tokens : List Token} {arguments : List Node} (many : Many Reads tokens arguments)
    (closes : closing.kind = .rightParen) :
    (reader.become (.inside (context.enter line (.argument callee [])))).feed (tokens ++ [closing]) =
      firstOr (Node.faultsAll (context.forms.length + 1) false arguments)
        (reader.fill context (.expression (call callee arguments line closing.line))) := by
  have read := feed_arguments reader context line callee many []
  rw [List.append_nil] at read
  have closed : (reader.become (.inside (context.enter line
        (.argument callee (arguments.map (.wrap .argument)).reverse)))).step closing =
      reader.fill context (.expression (call callee arguments line closing.line)) := by
    simp only [step, state_become, closes, Context.enter, Hole.whole?, List.reverse_reverse]
    rfl
  simp [feed_append, read, closed]

theorem reads_literal {token : Token} {node : Node} (noOpening : token.kind ≠ .leftParen)
    (noClosing : token.kind ≠ .rightParen) (free : ∀ depth, node.faultsFrom depth false = [])
    (begins : ∀ (reader : Reader) (context : Context),
      reader.begin context token = reader.fill context node) : Reads [token] node := by
  intro reader context awaits
  simp [awaits.step_literal noOpening noClosing, free, begins]

/-! ## Productions -/

section
variable {opening head closing : Token} {tokens : List Token} {operands arguments : List Node}
variable (parens : Parens opening closing)
include parens

theorem reads_operation {operator : Operator} (kind : head.kind = .operator operator)
    (single : ∀ operand ∈ operands, operand.kind ≠ .expressionList)
    (takes : operator.Takes operands.length) (reads : Many Reads tokens operands) :
    Reads (opening :: head :: (tokens ++ [closing]))
      (.expression (operation operator operands opening.line)) := by
  intro reader context awaits
  have opened : reader.openForm opening.line context head =
      .ok (reader.become (operandState operator [] opening.line context)) := by
    simp only [openForm, kind, operandState]
    cases operator <;> rfl
  have more : ∀ fewer < 0 + operands.length, operator.takesMore fewer := by
    intro fewer less
    obtain ⟨-, variadic | most⟩ := Operator.takes_iff.mp takes
    · exact Operator.takesMore_iff.mpr (.inl variadic)
    · exact Operator.takesMore_iff.mpr (.inr (by omega))
  have read := feed_operands reader context opening.line operator reads [] more
  rw [awaits.feed_opening parens.opens (by simp [kind]), opened, faultsFrom_expression,
    faultsFrom_operation]
  simp only [ok_bind, feed_append, read, firstOr_bind, List.append_nil, feed_cons, feed_nil, bind_ok,
    step_operandState _ _ _ takes parens.closes, close_operation _ _ _ _ _ single, firstOr_append]

-- The test is checked before the other branches are read, so its violation comes first.
theorem reads_conditional {tests consequents alternatives : List Token}
    {condition consequent alternative : Node} (kind : head.kind = .conditional)
    (readsTest : Reads tests condition) (readsConsequent : Reads consequents consequent)
    (readsAlternative : Reads alternatives alternative) :
    Reads (opening :: head :: (tests ++ (consequents ++ (alternatives ++ [closing]))))
      (.expression (conditional condition consequent alternative opening.line)) := by
  intro reader context awaits
  have opened : reader.openForm opening.line context head =
      .ok (reader.become (.inside (context.enter opening.line .condition))) := by
    simp only [openForm, kind]
  have filledTest :
      reader.fill (context.enter opening.line (.thenBranch (.wrap .test condition))) consequent =
        .ok (reader.become (.inside (context.enter opening.line
          (.elseBranch (.wrap .test condition) (.wrap .consequent consequent))))) := rfl
  have filledBranch : reader.fill (context.enter opening.line
        (.elseBranch (.wrap .test condition) (.wrap .consequent consequent))) alternative =
      .ok (reader.become (.closing opening.line (.conditional (.wrap .test condition)
        (.wrap .consequent consequent) (.wrap .alternative alternative)) context)) := rfl
  have closed : (reader.become (.closing opening.line (.conditional (.wrap .test condition)
        (.wrap .consequent consequent) (.wrap .alternative alternative)) context)).step closing =
      reader.fill context
        (.expression (conditional condition consequent alternative opening.line)) := by
    simp only [step, state_become, parens.closes]
    rfl
  rw [awaits.feed_opening parens.opens (by simp [kind]), opened, faultsFrom_expression,
    faultsFrom_conditional]
  simp [feed_append, readsTest.inside, readsConsequent.inside, readsAlternative.inside,
    fill_condition, filledTest, filledBranch, closed]

theorem reads_namedCall (kind : head.kind = .identifier) (reads : Many Reads tokens arguments) :
    Reads (opening :: head :: (tokens ++ [closing]))
      (.expression (call (calleeName head) arguments opening.line closing.line)) := by
  intro reader context awaits
  have opened : reader.openForm opening.line context head =
      .ok (reader.become (.inside (context.enter opening.line (.argument (calleeName head) [])))) := by
    simp only [openForm, kind]
    rfl
  have callee : (calleeName head).faultsFrom (context.forms.length + 1) true = [] := rfl
  have rest := feed_callArguments reader context opening.line (calleeName head) reads parens.closes
  rw [awaits.feed_opening parens.opens (by simp [kind]), opened, faultsFrom_expression,
    faultsFrom_call, callee, firstOr_append]
  exact congrArg _ rest

end

theorem reads_function {tokens : List Token} {node : Node} (form : Function Reads tokens node) :
    Reads tokens (.expression node) := by
  cases form with
  | @intro opening head listOpening listClosing closing parameters _ body parens kind listParens
      names reads =>
    intro reader context awaits
    have opened : reader.openForm opening.line context head =
        .ok (reader.become (.parametersStart .expression opening.line context)) := by
      simp only [openForm, kind]
    have rest := feed_functionBody reader context opening.line .expression listParens
      names reads parens.closes
    rw [awaits.feed_opening parens.opens (by simp [kind]), opened, faultsFrom_expression,
      faultsFrom_function, firstOr_append]
    exact congrArg _ rest

-- The function is read as far as its own parenthesis, which makes it the callee; the arguments follow.
theorem reads_functionCall {opening closing : Token} {callee tokens : List Token} {node : Node}
    {arguments : List Node} (parens : Parens opening closing) (form : Function Reads callee node)
    (reads : Many Reads tokens arguments) :
    Reads (opening :: (callee ++ (tokens ++ [closing])))
      (.expression (call node arguments opening.line closing.line)) := by
  cases form with
  | @intro opening' head listOpening listClosing closing' parameters _ body parens' kind
      listParens names readsBody =>
    intro reader context awaits
    have opened : reader.openForm opening.line context opening' =
        .ok (reader.become (.calleeHead opening.line opening'.line context)) := by
      simp only [openForm, parens'.opens]
    have headed : (reader.become (.calleeHead opening.line opening'.line context)).step head =
        .ok (reader.become (.parametersStart (.callee opening.line) opening'.line context)) := by
      simp only [step, state_become, kind]
      rfl
    have callee := feed_functionBody reader context opening'.line (.callee opening.line) listParens
      names readsBody parens'.closes
    have called : reader.close opening'.line (.function (.callee opening.line)
          (.gather .parameterList listOpening.line (parameters.map parameter)) (.wrap .body body))
          context closing'.line =
        .ok (reader.become (.inside (context.enter opening.line
          (.argument (function parameters listOpening.line body opening'.line) [])))) := rfl
    have rest := feed_callArguments reader context opening.line
      (function parameters listOpening.line body opening'.line) reads parens.closes
    rw [called] at callee
    simp only [List.cons_append]
    rw [awaits.feed_opening parens.opens (by simp [parens'.opens]), opened, ok_bind, feed_cons, headed,
      ok_bind, ← List.cons_append, feed_append, callee, faultsFrom_expression, faultsFrom_call,
      faultsFrom_callee]
    simp only [firstOr_append, firstOr_bind, ok_bind, rest]

end Reader

namespace Grammar

open Reader

theorem reads_of_part {tokens : List Token} {tree : Node}
    (part : ∃ _ : Expression tokens tree, Reads tokens tree) : Reads tokens tree := by
  obtain ⟨_, reads⟩ := part
  exact @reads

/-- Induction on the derivation: what comes before an expression has been read to the state in
which the reader awaits it, so the parts of a form are read one after another. -/
theorem Expression.reads {tokens : List Token} {tree : Node} (derives : Expression tokens tree) :
    Reads tokens tree := by
  induction derives with
  | number kind =>
    refine reads_literal (by simp [kind]) (by simp [kind]) (fun _ => rfl) fun reader context => ?_
    simp only [begin, kind]
  | boolean kind =>
    refine reads_literal (by simp [kind]) (by simp [kind]) (fun _ => rfl) fun reader context => ?_
    simp only [begin, kind]
  | identifier kind =>
    refine reads_literal (by simp [kind]) (by simp [kind]) (fun _ => rfl) fun reader context => ?_
    simp only [begin, kind]
  | operation parens kind many takes reads =>
    refine reads_operation parens kind ?_ takes (reads.imp reads_of_part)
    exact many.forall_mem fun derives => by simp [derives.kind_eq]
  | conditional parens kind _ _ _ readsTest readsConsequent readsAlternative =>
    exact reads_conditional parens kind readsTest readsConsequent readsAlternative
  | function _ form => exact reads_function (form.imp reads_of_part)
  | namedCall parens kind _ reads =>
    exact reads_namedCall parens kind (reads.imp reads_of_part)
  | functionCall parens _ _ form reads =>
    exact reads_functionCall parens (form.imp reads_of_part)
      (reads.imp reads_of_part)

end Grammar

end TypedLisp
