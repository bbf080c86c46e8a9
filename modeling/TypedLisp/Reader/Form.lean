import TypedLisp.Fault
import TypedLisp.Node.Build

/-! Expression forms in the course of being read.

A hole is a form that waits for an expression; a whole form waits for its closing
parenthesis only. Type rules run as soon as the parts they look at are complete:
a test when its condition is, an operator when it is closed.
-/

set_option autoImplicit false

namespace TypedLisp.Reader

/-- A function is an expression of its own, or the callee of a call opened on a line. -/
inductive FunctionRole where
  | expression
  | callee (callLine : Nat)
  deriving Repr, DecidableEq

/-- A form and the part its next expression becomes; lists hold the latest part first. -/
inductive Hole where
  | operand (operator : Operator) (operands : List Node)
  | condition
  | thenBranch (test : Node)
  | elseBranch (test consequent : Node)
  | body (role : FunctionRole) (parameters : Node)
  | argument (callee : Node) (arguments : List Node)
  deriving Repr, DecidableEq

inductive Whole where
  | operation (operator : Operator) (operands : List Node)
  | conditional (test consequent alternative : Node)
  | function (role : FunctionRole) (parameters body : Node)
  | call (callee : Node) (arguments : List Node)
  deriving Repr, DecidableEq

inductive Filled where
  | hole (hole : Hole)
  | whole (whole : Whole)
  deriving Repr, DecidableEq

def Hole.fill (expression : Node) : Hole → Except SourceError Filled
  | .operand operator operands =>
      let operands := expression :: operands
      if operator.takesMore operands.length then .ok (.hole (.operand operator operands))
      else .ok (.whole (.operation operator operands.reverse))
  | .condition =>
      match Node.test expression with
      | .error error => .error ⟨.illTyped error, expression.line⟩
      | .ok test => .ok (.hole (.thenBranch test))
  | .thenBranch test => .ok (.hole (.elseBranch test (.wrap .consequent expression)))
  | .elseBranch test consequent =>
      .ok (.whole (.conditional test consequent (.wrap .alternative expression)))
  | .body role parameters => .ok (.whole (.function role parameters (.wrap .body expression)))
  | .argument callee arguments =>
      .ok (.hole (.argument callee (.wrap .argument expression :: arguments)))

theorem Hole.condition_fill_eq_ok_iff {expression : Node} {filled : Filled} :
    condition.fill expression = .ok filled ↔
      expectClass "if test expr" .boolean [expression.operand] = .ok () ∧
        filled = .hole (.thenBranch (.wrap .test expression)) := by
  dsimp only [fill]
  split
  next fault made => simp [Node.test_eq_error_iff.mp made]
  next test made =>
    obtain ⟨checked, rfl⟩ := Node.test_eq_ok_iff.mp made
    simp [checked, eq_comm]

theorem Hole.condition_fill_eq_error_iff {expression : Node} {error : SourceError} :
    condition.fill expression = .error error ↔
      ∃ fault, expectClass "if test expr" .boolean [expression.operand] = .error fault ∧
        error = ⟨.illTyped fault, expression.line⟩ := by
  dsimp only [fill]
  split
  next fault made => simp [Node.test_eq_error_iff.mp made, eq_comm]
  next test made => simp [(Node.test_eq_ok_iff.mp made).1]

def Hole.whole? : Hole → Option Whole
  | .operand operator operands =>
      if operator.isSaturated operands.length then some (.operation operator operands.reverse)
      else none
  | .argument callee arguments => some (.call callee arguments.reverse)
  | _ => none

inductive Closed where
  | node (node : Node)
  | callee (callLine : Nat) (function : Node)
  deriving Repr, DecidableEq

/-- The operands of a node: all but the first of a variadic operator's form its tail. -/
def groupOperands (operator : Operator) (operands : List Node) : Except SourceError (List Node) :=
  match operator.variadic, operands with
  | true, first :: second :: rest =>
      match Node.operandTail second rest with
      | .error error => .error ⟨.illTyped error, second.line⟩
      | .ok tail => .ok [first, tail]
  | _, _ => .ok operands

def applyOperator (operator : Operator) (operands : List Node) (line : Nat) :
    Except SourceError Node :=
  match groupOperands operator operands with
  | .error error => .error error
  | .ok grouped =>
      match Node.operation operator grouped line with
      | .error error => .error ⟨.illTyped error, line⟩
      | .ok node => .ok node

def Whole.close (line closeLine : Nat) : Whole → Except SourceError Closed
  | .operation operator operands => (applyOperator operator operands line).map .node
  | .conditional test consequent alternative =>
      .ok (.node (.untyped .conditional [test, consequent, alternative] line))
  | .function .expression parameters body =>
      .ok (.node (.untyped .function [parameters, body] line))
  | .function (.callee callLine) parameters body =>
      .ok (.callee callLine (.untyped .function [parameters, body] line))
  | .call callee arguments =>
      .ok (.node (.call callee (.gather .argumentList closeLine arguments) line))

theorem Whole.operation_close_eq_ok_iff {operator : Operator} {operands : List Node}
    {line closeLine : Nat} {closed : Closed} :
    (operation operator operands).close line closeLine = .ok closed ↔
      ∃ node, applyOperator operator operands line = .ok node ∧ closed = .node node := by
  rw [close]
  cases applyOperator operator operands line <;> simp [Except.map, eq_comm]

/-- A form is refused as it closes for the types of its operands only. -/
theorem Whole.close_eq_error_iff {whole : Whole} {line closeLine : Nat} {error : SourceError} :
    whole.close line closeLine = .error error ↔
      ∃ operator operands, whole = .operation operator operands ∧
        applyOperator operator operands line = .error error := by
  cases whole with
  | operation operator operands =>
    rw [close]
    cases applied : applyOperator operator operands line <;> simp [applied, Except.map, and_assoc]
  | function role => cases role <;> simp [close]
  | conditional | call => simp [close]

end TypedLisp.Reader
