import TypedLisp.Proofs.Reading.Outcome

/-! The faults of the documented shapes, in the order in which their tokens come.

Scaffolding adds no fault to those of the expressions in it. A form adds the
nesting limit before them and its own rule after them, of which a variadic
operator has two: that of the list of its later operands, then its own.
-/

set_option autoImplicit false

namespace TypedLisp

open Grammar

namespace Reader

/-! ## Scaffolding -/

section
variable (depth : Nat)

@[simp] theorem faultsAll_cons (called : Bool) (node : Node) (nodes : List Node) :
    Node.faultsAll depth called (node :: nodes) =
      node.faultsFrom depth called ++ Node.faultsAll depth called nodes := rfl

@[simp] theorem faultsAll_nil (called : Bool) : Node.faultsAll depth called [] = [] := rfl

theorem faultsFrom_expression (inner : Node) :
    (Node.expression inner).faultsFrom depth false = inner.faultsFrom depth false := by
  rw [Node.faultsFrom_of_isPlain rfl]
  exact List.append_nil _

theorem faultsFrom_wrap (kind : NodeKind) (plain : kind.isPlain) (called : Bool) (inner : Node) :
    (Node.wrap kind inner).faultsFrom depth called = inner.faultsFrom depth false :=
  (Node.faultsFrom_of_isPlain plain called depth).trans (List.append_nil _)

end

/-! ## Operators -/

def listFaults (operator : Operator) : List Node → List SourceError
  | _ :: second :: third :: rest =>
      if operator.variadic then (expressionList (second :: third :: rest) second.line).violation?.toList
      else []
  | _ => []

theorem listFaults_of_few {operator : Operator} {operands : List Node}
    (few : operator.variadic = false ∨ operands.length ≤ 2) : listFaults operator operands = [] := by
  unfold listFaults
  split
  next =>
    refine if_neg fun variadic => ?_
    rcases few with fixed | short
    · cases fixed.symm.trans variadic
    · simp at short
  next => rfl

theorem groupOperands_eq (operator : Operator) (operands : List Node) :
    groupOperands operator operands =
      firstOr (listFaults operator operands) (.ok (operandNodes operator operands)) := by
  match operands with
  | [] => simp [groupOperands, listFaults, operandNodes]
  | [first] => simp [groupOperands, listFaults, operandNodes]
  | [first, second] =>
    cases variadic : operator.variadic <;>
      simp [groupOperands, listFaults, operandNodes, variadic, Node.operandTail, operandTail]
  | first :: second :: third :: rest =>
    cases variadic : operator.variadic
    case false => simp [groupOperands, listFaults, operandNodes, variadic]
    simp only [groupOperands, listFaults, operandNodes, variadic, Node.operandTail, operandTail,
      Node.expressionList, expressionList, Node.violation?, Node.rule]
    cases sharedType ((second :: third :: rest).map Node.operand) <;> rfl

theorem faultsAll_operandNodes (depth : Nat) (operator : Operator) (operands : List Node) :
    Node.faultsAll depth false (operandNodes operator operands) =
      Node.faultsAll depth false operands ++ listFaults operator operands := by
  rcases operandNodes_cases operator operands with
    ⟨few, flat⟩ | ⟨first, second, third, rest, variadic, rfl, listed⟩
  · rw [flat, listFaults_of_few few, List.append_nil]
  · have list : (expressionList (second :: third :: rest) second.line).faultsFrom depth false =
        Node.faultsAll depth false (second :: third :: rest) ++
          (expressionList (second :: third :: rest) second.line).violation?.toList :=
      Node.faultsFrom_of_not_nests rfl depth
    rw [listed]
    simp [listFaults, variadic, list]

/-- Flattening undoes the grouping of operands. -/
theorem operands_operation (operator : Operator) {operands : List Node} (line : Nat)
    (single : ∀ operand ∈ operands, operand.kind ≠ .expressionList) :
    (operation operator operands line).operands = operands := by
  unfold Node.operands operation
  rcases operandNodes_cases operator operands with
    ⟨-, flat⟩ | ⟨first, second, third, rest, -, rfl, listed⟩
  · rw [flat]
    exact Node.flatMap_members single
  · have alone : first.members = [first] := Node.members_of_ne (single first (by simp))
    have list : (expressionList (second :: third :: rest) second.line).members =
        second :: third :: rest := rfl
    rw [listed]
    simp [alone, list]

theorem rule_operation (operator : Operator) {operands : List Node} (line : Nat)
    (single : ∀ operand ∈ operands, operand.kind ≠ .expressionList) :
    (operation operator operands line).rule =
      expectClass operator.symbol operator.operandClass (operands.map Node.operand) := by
  have unfolded : (operation operator operands line).rule =
      expectClass operator.symbol operator.operandClass
        ((operation operator operands line).operands.map Node.operand) := rfl
  rw [unfolded, operands_operation operator line single]

theorem shares_of_expressionList {items : List Node} {line : Nat}
    (inOrder : (expressionList items line).violation? = none) :
    ∃ shared, Shares (items.map Node.operand) shared ∧
      (expressionList items line).operand = ⟨some shared, NodeKind.expressionList.name⟩ := by
  have rule : (expressionList items line).rule =
      (sharedType (items.map Node.operand)).map fun _ => () := rfl
  cases found : sharedType (items.map Node.operand) with
  | error fault => simp [Node.violation?, rule, found, Except.map] at inOrder
  | ok shared =>
    refine ⟨shared, sharedType_eq_ok_iff.mp found, ?_⟩
    simp [Node.operand, expressionList, found, Except.toOption]

-- A list in order has a type that fits wherever its members fit, so it may stand for them.
theorem expectClass_operandNodes {operator : Operator} {operands : List Node}
    (inOrder : listFaults operator operands = []) (context : String) (expected : OperandClass) :
    expectClass context expected ((operandNodes operator operands).map Node.operand) =
      expectClass context expected (operands.map Node.operand) := by
  rcases operandNodes_cases operator operands with
    ⟨-, flat⟩ | ⟨first, second, third, rest, variadic, rfl, listed⟩
  · rw [flat]
  · have list : (expressionList (second :: third :: rest) second.line).violation? = none := by
      simpa [listFaults, variadic] using inOrder
    obtain ⟨shared, shares, listOperand⟩ := shares_of_expressionList list
    rw [listed, List.map_cons, List.map_cons, List.map_nil, listOperand, List.map_cons]
    exact expectClass_listed shares context expected NodeKind.expressionList.name

/-- Operands are looked at as written, once the list of the later ones is in order. -/
theorem applyOperator_eq (operator : Operator) {operands : List Node} (line : Nat)
    (single : ∀ operand ∈ operands, operand.kind ≠ .expressionList) :
    applyOperator operator operands line =
      firstOr (listFaults operator operands ++ (operation operator operands line).violation?.toList)
        (.ok (operation operator operands line)) := by
  unfold applyOperator
  rw [groupOperands_eq]
  cases inOrder : listFaults operator operands with
  | cons fault faults => rfl
  | nil =>
    have rule : (operation operator operands line).rule =
        expectClass operator.symbol operator.operandClass
          ((operandNodes operator operands).map Node.operand) := by
      rw [expectClass_operandNodes inOrder, rule_operation operator line single]
    have built : operation operator operands line = ⟨.operator operator,
        some operator.operandClass.valueType, line, [], operandNodes operator operands⟩ := by
      rw [operation, operator.expects_eq]
    rw [built] at rule ⊢
    simp only [firstOr_nil, List.nil_append, Node.operation, Node.violation?, rule]
    cases expectClass operator.symbol operator.operandClass
      ((operandNodes operator operands).map Node.operand) <;> rfl

/-! ## Forms -/

section
variable (depth : Nat)

theorem faultsFrom_gather {kind : NodeKind} (plain : kind.isPlain) (called : Bool) (emptyLine : Nat)
    {items : List Node}
    (same : ∀ item ∈ items, item.faultsFrom depth called = item.faultsFrom depth false) :
    (Node.gather kind emptyLine items).faultsFrom depth called = Node.faultsAll depth false items := by
  match items with
  | [] => exact Node.faultsFrom_of_isPlain plain called depth
  | [item] => simp [Node.gather, same item (by simp)]
  | first :: second :: rest => exact Node.faultsFrom_of_isPlain plain called depth

theorem faultsAll_wrap {kind : NodeKind} (plain : kind.isPlain) (items : List Node) :
    Node.faultsAll depth false (items.map (.wrap kind)) = Node.faultsAll depth false items := by
  induction items with
  | nil => rfl
  | cons item items ih => simp [faultsFrom_wrap depth kind plain, ih]

theorem faultsFrom_parameters (called : Bool) (emptyLine : Nat) (parameters : List Token) :
    (Node.gather .parameterList emptyLine (parameters.map parameter)).faultsFrom depth called = [] := by
  have none (called : Bool) (token : Token) : (parameter token).faultsFrom depth called = [] := rfl
  rw [faultsFrom_gather depth rfl called emptyLine (by simp [none])]
  induction parameters with
  | nil => rfl
  | cons token tokens ih => simp [none, ih]

theorem faultsFrom_operation (operator : Operator) (operands : List Node) (line : Nat) :
    (operation operator operands line).faultsFrom depth false =
      (if depth < nestingLimit then [] else [⟨.nestedTooDeep, line⟩]) ++
        (Node.faultsAll (depth + 1) false operands ++
          (listFaults operator operands ++ (operation operator operands line).violation?.toList)) := by
  rw [Node.faultsFrom_of_nests rfl, ← List.append_assoc (Node.faultsAll ..), ← faultsAll_operandNodes]
  rfl

theorem faultsFrom_conditional (condition consequent alternative : Node) (line : Nat) :
    (conditional condition consequent alternative line).faultsFrom depth false =
      (if depth < nestingLimit then [] else [⟨.nestedTooDeep, line⟩]) ++
        (condition.faultsFrom (depth + 1) false ++ ((Node.wrap .test condition).violation?.toList ++
          (consequent.faultsFrom (depth + 1) false ++ alternative.faultsFrom (depth + 1) false))) := by
  have test : (Node.wrap .test condition).faultsFrom (depth + 1) false =
      Node.faultsAll (depth + 1) false [condition] ++ (Node.wrap .test condition).violation?.toList :=
    Node.faultsFrom_of_not_nests rfl (depth + 1)
  have consequents := faultsFrom_wrap (depth + 1) .consequent rfl false consequent
  have alternatives := faultsFrom_wrap (depth + 1) .alternative rfl false alternative
  rw [Node.faultsFrom_of_nests rfl, Node.violation?_of_not_hasRule rfl]
  simp [conditional, Node.untyped, NodeKind.isCall, test, consequents, alternatives]

theorem faultsFrom_function (parameters : List Token) (listLine : Nat) (body : Node) (line : Nat) :
    (function parameters listLine body line).faultsFrom depth false =
      (if depth < nestingLimit then [] else [⟨.nestedTooDeep, line⟩]) ++
        body.faultsFrom (depth + 1) false := by
  have bodies := faultsFrom_wrap (depth + 1) .body rfl false body
  rw [Node.faultsFrom_of_nests rfl, Node.violation?_of_not_hasRule rfl]
  simp [function, Node.untyped, NodeKind.isCall, faultsFrom_parameters, bodies]

theorem faultsFrom_callee (parameters : List Token) (listLine : Nat) (body : Node) (line : Nat) :
    (function parameters listLine body line).faultsFrom depth true = body.faultsFrom depth false := by
  have bodies := faultsFrom_wrap depth .body rfl false body
  rw [Node.faultsFrom_of_not_nests rfl, Node.violation?_of_not_hasRule rfl]
  simp [function, Node.untyped, NodeKind.isCall, faultsFrom_parameters, bodies]

theorem faultsFrom_call (callee : Node) (arguments : List Node) (line closeLine : Nat) :
    (call callee arguments line closeLine).faultsFrom depth false =
      (if depth < nestingLimit then [] else [⟨.nestedTooDeep, line⟩]) ++
        (callee.faultsFrom (depth + 1) true ++ Node.faultsAll (depth + 1) false arguments) := by
  have list : (Node.gather .argumentList closeLine (arguments.map (.wrap .argument))).faultsFrom
      (depth + 1) true = Node.faultsAll (depth + 1) false arguments := by
    rw [faultsFrom_gather (depth + 1) rfl true closeLine, faultsAll_wrap (depth + 1) rfl]
    intro item member
    obtain ⟨inner, -, rfl⟩ := List.mem_map.mp member
    rw [faultsFrom_wrap (depth + 1) .argument rfl, faultsFrom_wrap (depth + 1) .argument rfl]
  rw [Node.faultsFrom_of_nests rfl, Node.violation?_of_not_hasRule rfl]
  simp [call, Node.call, NodeKind.isCall, list]

end

end Reader

end TypedLisp
