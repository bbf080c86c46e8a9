import TypedLisp.Decimal
import TypedLisp.Node

/-! Building nodes.

Value types are settled as a node is built: literals and operators have one type,
identifiers and calls are unconstrained, an expression takes its inner node's
type and a list of expressions the type its members share. Operators, tests and
lists refuse operands that break their rule.
-/

set_option autoImplicit false

namespace TypedLisp.Node

/-- An expression goes by the kind of the node in it, every other node by its own. -/
def operand (node : Node) : Operand where
  valueType := node.valueType
  kindName :=
    match node.kind, node.children with
    | .expression, inner :: _ => inner.kind.name
    | kind, _ => kind.name

def untyped (kind : NodeKind) (children : List Node) (line : Nat) : Node :=
  ⟨kind, none, line, [], children⟩

def wrap (kind : NodeKind) (inner : Node) : Node :=
  untyped kind [inner] inner.line

def number (value : Int) (line : Nat) : Node :=
  ⟨.number, some .number, line, [String.ofList (Decimal.write value)], []⟩

def boolean (value : Bool) (line : Nat) : Node :=
  ⟨.boolean, some .boolean, line, [if value then "#t" else "#f"], []⟩

def identifier (name : String) (line : Nat) : Node :=
  ⟨.identifier, some .unconstrained, line, [name], []⟩

def call (callee arguments : Node) (line : Nat) : Node :=
  ⟨.call, some .unconstrained, line, [], [callee, arguments]⟩

def expression (inner : Node) : Node :=
  ⟨.expression, inner.valueType, inner.line, [], [inner]⟩

def expressionList (first second : Node) (rest : List Node) : Except TypeFault Node :=
  let items := first :: second :: rest
  (sharedType (items.map operand)).map fun shared =>
    ⟨.expressionList, some shared, first.line, [], items⟩

def operation (operator : Operator) (operands : List Node) (line : Nat) :
    Except TypeFault Node :=
  (expectClass operator.symbol operator.operandClass (operands.map operand)).map fun () =>
    ⟨.operator operator, some operator.operandClass.valueType, line, [], operands⟩

def test (condition : Node) : Except TypeFault Node :=
  (expectClass "if test expr" .boolean [condition.operand]).map fun () => wrap .test condition

section
variable {node : Node} {fault : TypeFault}

theorem expressionList_eq_ok_iff {first second : Node} {rest : List Node} :
    expressionList first second rest = .ok node ↔
      ∃ shared, sharedType ((first :: second :: rest).map operand) = .ok shared ∧
        node = ⟨.expressionList, some shared, first.line, [], first :: second :: rest⟩ := by
  dsimp only [expressionList]
  cases sharedType ((first :: second :: rest).map operand) <;> simp [Except.map, eq_comm]

theorem operation_eq_ok_iff {operator : Operator} {operands : List Node} {line : Nat} :
    operation operator operands line = .ok node ↔
      expectClass operator.symbol operator.operandClass (operands.map operand) = .ok () ∧
        node = ⟨.operator operator, some operator.operandClass.valueType, line, [], operands⟩ := by
  unfold operation
  cases expectClass operator.symbol operator.operandClass (operands.map operand) <;>
    simp [Except.map, eq_comm]

theorem test_eq_ok_iff {condition : Node} :
    test condition = .ok node ↔
      expectClass "if test expr" .boolean [condition.operand] = .ok () ∧
        node = wrap .test condition := by
  unfold test
  cases expectClass "if test expr" .boolean [condition.operand] <;> simp [Except.map, eq_comm]

theorem test_eq_error_iff {condition : Node} :
    test condition = .error fault ↔
      expectClass "if test expr" .boolean [condition.operand] = .error fault := by
  unfold test
  cases expectClass "if test expr" .boolean [condition.operand] <;> simp [Except.map]

end

def print (kind : NodeKind) (keyword : String) (printed : Node) (line : Nat) : Node :=
  ⟨kind, none, line, [keyword], [printed]⟩

/-- No items are written as a `nil` leaf, one item stands alone, more are listed. -/
def gather (kind : NodeKind) (emptyLine : Nat) : List Node → Node
  | [] => ⟨kind, none, emptyLine, ["nil"], []⟩
  | [item] => item
  | first :: second :: rest => untyped kind (first :: second :: rest) first.line

/-- The operands of a variadic operator after its first one: one stands alone, more are listed. -/
def operandTail (first : Node) : List Node → Except TypeFault Node
  | [] => .ok first
  | second :: rest => expressionList first second rest

def program? : List Node → Option Node
  | [] => none
  | first :: rest => some (wrap .program (gather .statementList first.line (first :: rest)))

def statements (program : Node) : List Node :=
  match program.children with
  | [⟨.statementList, _, _, _, statements⟩] => statements
  | children => children

end TypedLisp.Node
