import TypedLisp.Proofs.Grammar
import TypedLisp.Proofs.Typing.Rules

/-! How deep the documented shapes nest.

A form is one deeper than the deepest of its parts, and scaffolding adds nothing. A
function that is called is no deeper than its body, since its call is counted.
-/

set_option autoImplicit false

namespace TypedLisp

namespace Node

theorem nestingFrom_eq (node : Node) (called : Bool) :
    node.nestingFrom called =
      nestingAll node.kind.isCall node.children + if node.kind.nests called then 1 else 0 := by
  cases node
  rfl

theorem nestingAll_le_iff {called : Bool} {nodes : List Node} {room : Nat} :
    nestingAll called nodes ≤ room ↔ ∀ node ∈ nodes, node.nestingFrom called ≤ room := by
  induction nodes with
  | nil => simp [nestingAll]
  | cons node nodes ih => rw [nestingAll, Nat.max_le, ih, List.forall_mem_cons]

theorem forall_nesting_le_iff {nodes : List Node} {room : Nat} :
    nestingAll false nodes ≤ room ↔ ∀ node ∈ nodes, node.nesting ≤ room :=
  nestingAll_le_iff

theorem nestingFrom_of_isPlain {node : Node} (plain : node.kind.isPlain) (called : Bool) :
    node.nestingFrom called = nestingAll false node.children := by
  have flat : node.kind.nests called = false ∧ node.kind.isCall = false := by
    cases kind : node.kind <;> simp_all [NodeKind.isPlain, NodeKind.nests, NodeKind.isCall]
  simp [nestingFrom_eq, flat]

theorem nestingAll_singleton (called : Bool) (node : Node) :
    nestingAll called [node] = node.nestingFrom called :=
  Nat.max_zero _

theorem nestingFrom_wrap {kind : NodeKind} (plain : kind.isPlain) (called : Bool) (inner : Node) :
    (wrap kind inner).nestingFrom called = inner.nesting :=
  (nestingFrom_of_isPlain plain called).trans (nestingAll_singleton false inner)

theorem nesting_test (condition : Node) : (wrap .test condition).nesting = condition.nesting :=
  nestingAll_singleton false condition

theorem nesting_expression (inner : Node) : (expression inner).nesting = inner.nesting :=
  nestingAll_singleton false inner

-- A single item takes the place of the list and is looked at as the list would be, called or not.
theorem nestingFrom_gather_le_iff {kind : NodeKind} (plain : kind.isPlain) (called : Bool)
    (emptyLine : Nat) {items : List Node} (same : ∀ item ∈ items, item.nestingFrom called = item.nesting)
    {room : Nat} :
    (gather kind emptyLine items).nestingFrom called ≤ room ↔ ∀ item ∈ items, item.nesting ≤ room := by
  match items with
  | [] =>
    have none : (gather kind emptyLine []).nestingFrom called = 0 := nestingFrom_of_isPlain plain called
    simp [none]
  | [item] => simp [gather, same item]
  | first :: second :: rest =>
    rw [nestingFrom_of_isPlain plain]
    exact nestingAll_le_iff

end Node

namespace Grammar

section
variable {room : Nat}

theorem nestingAll_operandNodes (operator : Operator) (operands : List Node) :
    Node.nestingAll false (operandNodes operator operands) = Node.nestingAll false operands := by
  rcases operandNodes_cases operator operands with
    ⟨-, flat⟩ | ⟨first, second, third, rest, -, rfl, listed⟩
  · rw [flat]
  · have list : (expressionList (second :: third :: rest) second.line).nestingFrom false =
        Node.nestingAll false (second :: third :: rest) := rfl
    rw [listed]
    simp [Node.nestingAll, list]

theorem nesting_operation_le_iff {operator : Operator} {operands : List Node} {line : Nat} :
    (operation operator operands line).nesting ≤ room + 1 ↔
      ∀ operand ∈ operands, operand.nesting ≤ room := by
  have unfolded : (operation operator operands line).nesting =
      Node.nestingAll false (operandNodes operator operands) + 1 := rfl
  rw [unfolded, nestingAll_operandNodes, Nat.add_le_add_iff_right, Node.forall_nesting_le_iff]

theorem nesting_conditional_le_iff {condition consequent alternative : Node} {line : Nat} :
    (conditional condition consequent alternative line).nesting ≤ room + 1 ↔
      condition.nesting ≤ room ∧ consequent.nesting ≤ room ∧ alternative.nesting ≤ room := by
  have unfolded : (conditional condition consequent alternative line).nesting =
      Node.nestingAll false [.wrap .test condition, .wrap .consequent consequent,
        .wrap .alternative alternative] + 1 := rfl
  have consequents : (Node.wrap .consequent consequent).nesting = consequent.nesting :=
    Node.nestingFrom_wrap rfl false consequent
  have alternatives : (Node.wrap .alternative alternative).nesting = alternative.nesting :=
    Node.nestingFrom_wrap rfl false alternative
  rw [unfolded, Nat.add_le_add_iff_right, Node.forall_nesting_le_iff]
  simp [Node.nesting_test, consequents, alternatives]

theorem nestingFrom_parameters (called : Bool) (emptyLine : Nat) (parameters : List Token) :
    (Node.gather .parameterList emptyLine (parameters.map parameter)).nestingFrom called = 0 := by
  refine Nat.le_zero.mp ((Node.nestingFrom_gather_le_iff rfl called emptyLine ?_).mpr ?_)
  · intro item member
    obtain ⟨token, -, rfl⟩ := List.mem_map.mp member
    rfl
  · intro item member
    obtain ⟨token, -, rfl⟩ := List.mem_map.mp member
    exact Nat.le_refl 0

/-- A function that is called is as deep as its body, any other is one deeper. -/
theorem nestingFrom_function (called : Bool) (parameters : List Token) (listLine : Nat) (body : Node)
    (line : Nat) :
    (function parameters listLine body line).nestingFrom called =
      body.nesting + if called then 0 else 1 := by
  have list := nestingFrom_parameters false listLine parameters
  have bodies : (Node.wrap .body body).nestingFrom false = body.nesting :=
    Node.nestingFrom_wrap rfl false body
  have parts : Node.nestingAll false
      [.gather .parameterList listLine (parameters.map parameter), .wrap .body body] = body.nesting := by
    simp [Node.nestingAll, list, bodies]
  rw [Node.nestingFrom_eq]
  simp only [function, Node.untyped, NodeKind.isCall, parts, NodeKind.nests]
  cases called <;> rfl

theorem nesting_call_le_iff {callee : Node} {arguments : List Node} {line closeLine : Nat} :
    (call callee arguments line closeLine).nesting ≤ room + 1 ↔
      callee.nestingFrom true ≤ room ∧ ∀ argument ∈ arguments, argument.nesting ≤ room := by
  have unfolded : (call callee arguments line closeLine).nesting =
      Node.nestingAll true
        [callee, .gather .argumentList closeLine (arguments.map (.wrap .argument))] + 1 := rfl
  have wrapped (called : Bool) (inner : Node) :
      (Node.wrap .argument inner).nestingFrom called = inner.nesting :=
    Node.nestingFrom_wrap rfl called inner
  have list : (Node.gather .argumentList closeLine (arguments.map (.wrap .argument))).nestingFrom
      true ≤ room ↔ ∀ item ∈ arguments.map (Node.wrap .argument), item.nesting ≤ room :=
    Node.nestingFrom_gather_le_iff rfl true closeLine (by simp [Node.nesting, wrapped])
  rw [unfolded, Nat.add_le_add_iff_right, Node.nestingAll_le_iff]
  simp [list, Node.nesting, wrapped]

/-! ## Statements -/

theorem nesting_print {kind : NodeKind} (plain : kind.isPlain) (keyword : String) (printed : Node)
    (line : Nat) : (Node.print kind keyword printed line).nesting = printed.nesting :=
  (Node.nestingFrom_of_isPlain plain false).trans (Node.nestingAll_singleton false printed)

theorem nesting_definition (name : Token) (value : Node) (line : Nat) :
    (definition name value line).nesting = value.nesting := by
  have unfolded : (definition name value line).nesting = max 0 (max value.nesting 0) := rfl
  rw [unfolded, Nat.max_zero, Nat.zero_max]

theorem nesting_program?_le_iff {statements : List Node} {tree : Node}
    (program : Node.program? statements = some tree) :
    tree.nesting ≤ room ↔ ∀ statement ∈ statements, statement.nesting ≤ room := by
  cases statements with
  | nil => cases program
  | cons first rest =>
    cases program
    rw [Node.nesting, Node.nestingFrom_wrap rfl]
    exact Node.nestingFrom_gather_le_iff rfl false first.line fun _ _ => rfl

end

end Grammar

end TypedLisp
