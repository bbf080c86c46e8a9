import TypedLisp.Fault
import TypedLisp.Node.Build

/-! Changing the lines of nodes, tokens and faults.

Building a node copies lines and looks at none of them, so a change of lines may be
made before or after it.
-/

set_option autoImplicit false

namespace TypedLisp

def Located.mapLine {Fault : Type} (change : Nat → Nat) (located : Located Fault) : Located Fault :=
  ⟨located.fault, change located.line⟩

def Token.mapLine (change : Nat → Nat) (token : Token) : Token :=
  { token with line := change token.line }

def mapResult {Value Fault : Type} (change : Nat → Nat) (mapLines : Value → Value) :
    Except (Located Fault) Value → Except (Located Fault) Value
  | .ok value => .ok (mapLines value)
  | .error error => .error (error.mapLine change)

namespace Node

variable (change : Nat → Nat)

theorem mapLinesAll_eq (nodes : List Node) : mapLinesAll change nodes = nodes.map (mapLines change) := by
  induction nodes with
  | nil => rfl
  | cons node nodes ih => rw [mapLinesAll, ih, List.map_cons]

section
variable (node : Node)

@[simp] theorem kind_mapLines : (node.mapLines change).kind = node.kind := by cases node; rfl

@[simp] theorem valueType_mapLines : (node.mapLines change).valueType = node.valueType := by
  cases node; rfl

@[simp] theorem line_mapLines : (node.mapLines change).line = change node.line := by cases node; rfl

@[simp] theorem children_mapLines :
    (node.mapLines change).children = node.children.map (mapLines change) := by
  cases node
  exact mapLinesAll_eq change _

/-- An operand goes by its kinds and its type. -/
@[simp] theorem operand_mapLines : (node.mapLines change).operand = node.operand := by
  unfold operand
  rw [kind_mapLines, valueType_mapLines, children_mapLines]
  cases node.kind <;> cases node.children <;> simp

@[simp] theorem map_operand_mapLines (nodes : List Node) :
    (nodes.map (mapLines change)).map operand = nodes.map operand := by
  simp

end

/-! ## Builders -/

section
variable (kind : NodeKind) (node : Node) (line : Nat)

@[simp] theorem mapLines_untyped (children : List Node) :
    (untyped kind children line).mapLines change =
      untyped kind (children.map (mapLines change)) (change line) := by
  rw [untyped, mapLines, mapLinesAll_eq]
  rfl

@[simp] theorem mapLines_wrap : (wrap kind node).mapLines change = wrap kind (node.mapLines change) := by
  rw [wrap, mapLines_untyped, wrap, line_mapLines]
  rfl

@[simp] theorem mapLines_number (value : Int) :
    (number value line).mapLines change = number value (change line) := rfl

@[simp] theorem mapLines_boolean (value : Bool) :
    (boolean value line).mapLines change = boolean value (change line) := rfl

@[simp] theorem mapLines_identifier (name : String) :
    (identifier name line).mapLines change = identifier name (change line) := rfl

@[simp] theorem mapLines_call (arguments : Node) :
    (call node arguments line).mapLines change =
      call (node.mapLines change) (arguments.mapLines change) (change line) := rfl

@[simp] theorem mapLines_expression :
    (expression node).mapLines change = expression (node.mapLines change) := by
  rw [expression, mapLines, expression, valueType_mapLines, line_mapLines]
  rfl

@[simp] theorem mapLines_print (keyword : String) :
    (print kind keyword node line).mapLines change =
      print kind keyword (node.mapLines change) (change line) := rfl

@[simp] theorem mapLines_gather (items : List Node) :
    (gather kind line items).mapLines change =
      gather kind (change line) (items.map (mapLines change)) := by
  match items with
  | [] => rfl
  | [item] => rfl
  | first :: second :: rest => simp [gather]

end

section
variable (first second : Node) (rest operands : List Node) (line : Nat)

theorem expressionList_mapLines :
    expressionList (first.mapLines change) (second.mapLines change) (rest.map (mapLines change)) =
      (expressionList first second rest).map (mapLines change) := by
  have operands : (first.mapLines change :: second.mapLines change :: rest.map (mapLines change)).map
      operand = (first :: second :: rest).map operand :=
    map_operand_mapLines change (first :: second :: rest)
  simp only [expressionList, operands]
  cases sharedType ((first :: second :: rest).map operand) with
  | error fault => rfl
  | ok shared => simp [Except.map, mapLines, mapLinesAll_eq]

theorem operandTail_mapLines :
    operandTail (first.mapLines change) (rest.map (mapLines change)) =
      (operandTail first rest).map (mapLines change) := by
  cases rest with
  | nil => rfl
  | cons second rest => exact expressionList_mapLines change first second rest

theorem operation_mapLines (operator : Operator) :
    operation operator (operands.map (mapLines change)) (change line) =
      (operation operator operands line).map (mapLines change) := by
  rw [operation, operation, map_operand_mapLines]
  cases expectClass operator.symbol operator.operandClass (operands.map operand) with
  | error fault => rfl
  | ok _ => simp [Except.map, mapLines, mapLinesAll_eq]

theorem test_mapLines (condition : Node) :
    test (condition.mapLines change) = (test condition).map (mapLines change) := by
  rw [test, test, operand_mapLines]
  cases expectClass "if test expr" .boolean [condition.operand] with
  | error fault => rfl
  | ok _ => simp [Except.map]

theorem program?_mapLines (statements : List Node) :
    program? (statements.map (mapLines change)) = (program? statements).map (mapLines change) := by
  cases statements with
  | nil => rfl
  | cons first rest => simp [program?]

end

/-- The statements of a program are those it was made of, unless one is itself a list. -/
theorem statements_of_program? {statements : List Node} {program : Node}
    (single : ∀ statement ∈ statements, statement.kind ≠ .statementList)
    (made : program? statements = some program) : program.statements = statements := by
  match statements with
  | [] => cases made
  | [statement] =>
    -- A lone statement stands where a list would, so its kind has to tell it from one.
    cases made
    have kind := single statement (List.mem_singleton_self statement)
    unfold Node.statements
    split
    next same =>
      cases List.cons.inj same |>.1
      exact absurd rfl kind
    next => rfl
  | first :: second :: rest =>
    cases made
    rfl

end Node

end TypedLisp
