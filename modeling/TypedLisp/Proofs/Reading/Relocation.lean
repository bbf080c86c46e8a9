import TypedLisp.Proofs.Node.Lines
import TypedLisp.Proofs.Reading.Outcome

/-! Readers whose tokens stand on other lines, after other statements.

A reader copies lines and never looks at the statements before the one in progress.
So a change of lines and statements before all others may be made before a token is
read or after it, and by induction before or after a whole list of tokens.
-/

set_option autoImplicit false

namespace TypedLisp.Reader

variable (change : Nat → Nat)

/-! ## Lines in a state -/

def FunctionRole.mapLines : FunctionRole → FunctionRole
  | .expression => .expression
  | .callee callLine => .callee (change callLine)

def Hole.mapLines : Hole → Hole
  | .operand operator operands => .operand operator (operands.map (.mapLines change))
  | .condition => .condition
  | .thenBranch test => .thenBranch (test.mapLines change)
  | .elseBranch test consequent => .elseBranch (test.mapLines change) (consequent.mapLines change)
  | .body role parameters => .body (role.mapLines change) (parameters.mapLines change)
  | .argument callee arguments =>
      .argument (callee.mapLines change) (arguments.map (.mapLines change))

def Whole.mapLines : Whole → Whole
  | .operation operator operands => .operation operator (operands.map (.mapLines change))
  | .conditional test consequent alternative =>
      .conditional (test.mapLines change) (consequent.mapLines change) (alternative.mapLines change)
  | .function role parameters body =>
      .function (role.mapLines change) (parameters.mapLines change) (body.mapLines change)
  | .call callee arguments => .call (callee.mapLines change) (arguments.map (.mapLines change))

def Filled.mapLines : Filled → Filled
  | .hole waiting => .hole (waiting.mapLines change)
  | .whole complete => .whole (complete.mapLines change)

def Closed.mapLines : Closed → Closed
  | .node closed => .node (closed.mapLines change)
  | .callee callLine function => .callee (change callLine) (function.mapLines change)

def StatementHole.mapLines : StatementHole → StatementHole
  | .bare => .bare
  | .definition line definedName => .definition (change line) (definedName.mapLines change)
  | .print line kind keyword => .print (change line) kind keyword

def Form.mapLines (form : Form) : Form :=
  ⟨change form.line, form.hole.mapLines change⟩

def Context.mapLines (context : Context) : Context :=
  ⟨context.statement.mapLines change, context.forms.map (.mapLines change)⟩

def State.mapLines : State → State
  | .idle => .idle
  | .statementHead line => .statementHead (change line)
  | .definedName line => .definedName (change line)
  | .statementEnd body => .statementEnd (body.mapLines change)
  | .inside context => .inside (context.mapLines change)
  | .closing line whole context =>
      .closing (change line) (whole.mapLines change) (context.mapLines change)
  | .head line context => .head (change line) (context.mapLines change)
  | .calleeHead callLine line context =>
      .calleeHead (change callLine) (change line) (context.mapLines change)
  | .parametersStart role line context =>
      .parametersStart (role.mapLines change) (change line) (context.mapLines change)
  | .parameters role line listLine read context =>
      .parameters (role.mapLines change) (change line) (change listLine)
        (read.map (.mapLines change)) (context.mapLines change)

/-- The same reader with its lines changed, after some statements more, the latest first. -/
def relocate (earlier : List Node) (reader : Reader) : Reader :=
  ⟨reader.statements.map (.mapLines change) ++ earlier, reader.state.mapLines change⟩

/-! ## Forms -/

theorem fill_mapLines_hole (hole : Hole) (expression : Node) :
    (hole.mapLines change).fill (expression.mapLines change) =
      mapResult change (.mapLines change) (hole.fill expression) := by
  cases hole with
  | operand operator operands =>
    simp only [Hole.mapLines, Hole.fill, List.length_cons, List.length_map]
    split
    next => rfl
    next => simp [mapResult, Filled.mapLines, Whole.mapLines]
  | condition =>
    simp only [Hole.mapLines, Hole.fill, Node.test_mapLines]
    cases Node.test expression with
    | error error => simp [Except.map, mapResult, Located.mapLine]
    | ok test => rfl
  | thenBranch test => simp [Hole.mapLines, Hole.fill, mapResult, Filled.mapLines]
  | elseBranch test consequent =>
    simp [Hole.mapLines, Hole.fill, mapResult, Filled.mapLines, Whole.mapLines]
  | body role parameters =>
    simp [Hole.mapLines, Hole.fill, mapResult, Filled.mapLines, Whole.mapLines]
  | argument callee arguments => simp [Hole.mapLines, Hole.fill, mapResult, Filled.mapLines]

theorem whole?_mapLines (hole : Hole) :
    (hole.mapLines change).whole? = hole.whole?.map (.mapLines change) := by
  cases hole with
  | operand operator operands =>
    simp only [Hole.mapLines, Hole.whole?, List.length_map]
    split
    next => simp [Whole.mapLines]
    next => rfl
  | argument callee arguments => simp [Hole.mapLines, Hole.whole?, Whole.mapLines]
  | condition | thenBranch | elseBranch | body => rfl

theorem groupOperands_mapLines (operator : Operator) (operands : List Node) :
    groupOperands operator (operands.map (.mapLines change)) =
      mapResult change (List.map (.mapLines change)) (groupOperands operator operands) := by
  match variadic : operator.variadic, operands with
  | true, first :: second :: rest =>
    simp only [groupOperands, variadic, List.map_cons, Node.operandTail_mapLines]
    cases Node.operandTail second rest with
    | error error => simp [Except.map, mapResult, Located.mapLine]
    | ok tail => rfl
  | true, [] | true, [_] | false, _ => simp [groupOperands, variadic, mapResult]

theorem applyOperator_mapLines (operator : Operator) (operands : List Node) (line : Nat) :
    applyOperator operator (operands.map (.mapLines change)) (change line) =
      mapResult change (.mapLines change) (applyOperator operator operands line) := by
  simp only [applyOperator, groupOperands_mapLines]
  cases groupOperands operator operands with
  | error error => rfl
  | ok grouped =>
    simp only [mapResult, Node.operation_mapLines]
    cases Node.operation operator grouped line <;> rfl

theorem close_mapLines_whole (whole : Whole) (line closeLine : Nat) :
    (whole.mapLines change).close (change line) (change closeLine) =
      mapResult change (.mapLines change) (whole.close line closeLine) := by
  cases whole with
  | operation operator operands =>
    simp only [Whole.mapLines, Whole.close, applyOperator_mapLines]
    cases applyOperator operator operands line <;> rfl
  | conditional test consequent alternative =>
    simp [Whole.mapLines, Whole.close, mapResult, Closed.mapLines]
  | function role parameters body =>
    cases role <;>
      simp [Whole.mapLines, Whole.close, FunctionRole.mapLines, mapResult, Closed.mapLines]
  | call callee arguments => simp [Whole.mapLines, Whole.close, mapResult, Closed.mapLines]

/-! ## Steps -/

section
variable (earlier : List Node) (reader : Reader)

@[simp] theorem relocate_become (state : State) :
    (reader.become state).relocate change earlier =
      (reader.relocate change earlier).become (state.mapLines change) := rfl

@[simp] theorem relocate_complete (body : Node) :
    (reader.complete body).relocate change earlier =
      (reader.relocate change earlier).complete (body.mapLines change) := by
  simp [relocate, complete, State.mapLines]

@[simp] theorem state_relocate :
    (reader.relocate change earlier).state = reader.state.mapLines change := rfl

theorem fill_relocate (context : Context) (expression : Node) :
    (reader.relocate change earlier).fill (context.mapLines change) (expression.mapLines change) =
      mapResult change (relocate change earlier) (reader.fill context expression) := by
  obtain ⟨statement, forms⟩ := context
  cases forms with
  | nil =>
    cases statement <;>
      simp [fill, Context.mapLines, StatementHole.mapLines, mapResult, State.mapLines]
  | cons form outer =>
    simp only [fill, Context.mapLines, List.map_cons, Form.mapLines, fill_mapLines_hole]
    cases form.hole.fill expression with
    | error error => rfl
    | ok filled => cases filled <;> rfl

theorem close_relocate (line : Nat) (whole : Whole) (context : Context) (closeLine : Nat) :
    (reader.relocate change earlier).close (change line) (whole.mapLines change)
        (context.mapLines change) (change closeLine) =
      mapResult change (relocate change earlier) (reader.close line whole context closeLine) := by
  simp only [close, close_mapLines_whole]
  cases whole.close line closeLine with
  | error error => rfl
  | ok closed =>
    cases closed with
    | node node =>
      simp only [mapResult, Closed.mapLines, ← Node.mapLines_expression]
      exact fill_relocate change earlier reader context (.expression node)
    | callee callLine function => rfl

theorem begin_relocate (context : Context) (token : Token) :
    (reader.relocate change earlier).begin (context.mapLines change) (token.mapLine change) =
      mapResult change (relocate change earlier) (reader.begin context token) := by
  have literal (expression : Node) := fill_relocate change earlier reader context expression
  unfold Reader.begin
  simp only [Token.mapLine]
  cases token.kind with
  | number value => simpa using literal (.expression (.number value token.line))
  | boolean value => simpa using literal (.expression (.boolean value token.line))
  | identifier => simpa using literal (.expression (.identifier token.lexeme token.line))
  | leftParen =>
    simp only [Context.mapLines, List.length_map]
    split <;> rfl
  | _ => rfl

theorem openForm_relocate (line : Nat) (context : Context) (token : Token) :
    (reader.relocate change earlier).openForm (change line) (context.mapLines change)
        (token.mapLine change) =
      mapResult change (relocate change earlier) (reader.openForm line context token) := by
  unfold Reader.openForm
  simp only [Token.mapLine]
  cases token.kind with
  | identifier =>
    simp [mapResult, State.mapLines, Context.enter, Context.mapLines, Form.mapLines, Hole.mapLines]
  | _ => rfl

/-- Lines changed and statements put before, then a token read: the same as the other way round. -/
theorem step_relocate (token : Token) :
    (reader.relocate change earlier).step (token.mapLine change) =
      mapResult change (relocate change earlier) (reader.step token) := by
  have kind : (token.mapLine change).kind = token.kind := rfl
  unfold Reader.step
  rw [state_relocate]
  cases reader.state with
  | idle =>
    simp only [State.mapLines, kind]
    cases token.kind with
    | leftParen => rfl
    | _ => exact begin_relocate change earlier reader ⟨.bare, []⟩ token
  | statementHead line =>
    simp only [State.mapLines, kind]
    cases token.kind with
    | define | printNum | printBool => rfl
    | _ => exact openForm_relocate change earlier reader line ⟨.bare, []⟩ token
  | definedName line =>
    simp only [State.mapLines, kind]
    cases token.kind with
    | identifier =>
      simp [mapResult, State.mapLines, Context.mapLines, StatementHole.mapLines, Token.mapLine]
    | _ => rfl
  | statementEnd body =>
    simp only [State.mapLines, kind]
    cases token.kind with
    | rightParen => simp [mapResult]
    | _ => rfl
  | inside context =>
    simp only [State.mapLines, kind]
    obtain ⟨statement, forms⟩ := context
    have began := begin_relocate change earlier reader ⟨statement, forms⟩ token
    cases token.kind with
    | rightParen =>
      -- Only a closing parenthesis looks at the innermost form; any other token starts an expression.
      cases forms with
      | nil => exact began
      | cons form outer =>
        simp only [Context.mapLines, List.map_cons, Form.mapLines, whole?_mapLines]
        cases form.hole.whole? with
        | none => rfl
        | some whole =>
          exact close_relocate change earlier reader form.line whole ⟨statement, outer⟩ token.line
    | _ => exact began
  | closing line whole context =>
    simp only [State.mapLines, kind]
    cases token.kind with
    | rightParen => exact close_relocate change earlier reader line whole context token.line
    | _ => rfl
  | head line context => exact openForm_relocate change earlier reader line context token
  | calleeHead callLine line context =>
    simp only [State.mapLines, kind]
    cases token.kind <;> rfl
  | parametersStart role line context =>
    simp only [State.mapLines, kind]
    cases token.kind <;> rfl
  | parameters role line listLine read context =>
    simp only [State.mapLines, kind]
    cases token.kind with
    | identifier => simp [mapResult, State.mapLines, Token.mapLine]
    | rightParen =>
      simp [mapResult, State.mapLines, Context.enter, Context.mapLines, Form.mapLines, Hole.mapLines]
    | _ => rfl

/-! ## Runs -/

theorem feed_relocate (tokens : List Token) :
    (reader.relocate change earlier).feed (tokens.map (.mapLine change)) =
      mapResult change (relocate change earlier) (reader.feed tokens) := by
  induction tokens generalizing reader with
  | nil => rfl
  | cons token tokens ih =>
    rw [List.map_cons, feed_cons, feed_cons, step_relocate]
    cases reader.step token with
    | error error => rfl
    | ok next => exact ih next

end

end TypedLisp.Reader
