import TypedLisp.Proofs.Reading.Adequacy
import TypedLisp.Proofs.Typing.Lines

/-! Nodes have the types of their structure, however they were built.

A node is read from a text or made by a builder, out of nodes that were read or made
before it. A builder settles the type of its node and refuses operands that break
its rule, so every node of every tree keeps its rule, in whatever order and out of
whatever parts the tree was put together.
-/

set_option autoImplicit false

namespace TypedLisp.Node

/-- What builders make of programs that were read, of nodes within them and of each other. -/
inductive Obtainable : Node → Prop
  | read {source : String} {program : Node} : parse source = .ok program → Obtainable program
  | part {tree node : Node} {path : List Nat} : Obtainable tree → tree.descend? path = some node →
      Obtainable node
  | number (value : Int) (line : Nat) : Obtainable (number value line)
  | boolean (value : Bool) (line : Nat) : Obtainable (boolean value line)
  | identifier (name : String) (line : Nat) : Obtainable (identifier name line)
  | call {callee arguments : Node} (line : Nat) : Obtainable callee → Obtainable arguments →
      Obtainable (call callee arguments line)
  | expression {inner : Node} : Obtainable inner → Obtainable (expression inner)
  | operation {operator : Operator} {operands : List Node} {line : Nat} {node : Node} :
      (∀ operand ∈ operands, Obtainable operand) → operation operator operands line = .ok node →
      Obtainable node
  | test {condition node : Node} : Obtainable condition → test condition = .ok node → Obtainable node

/-! ## Builders and parts -/

section
variable {node : Node}

theorem WellTyped.descend {tree : Node} (wellTyped : tree.WellTyped) {path : List Nat}
    (found : tree.descend? path = some node) : node.WellTyped := by
  induction path generalizing tree with
  | nil =>
    cases found
    exact wellTyped
  | cons index path ih =>
    obtain ⟨child, listed, found⟩ := Option.bind_eq_some_iff.mp found
    exact ih ((wellTyped_iff.mp wellTyped).2 child (List.mem_of_getElem? listed)) found

theorem wellTyped_of_leaf (alone : node.children = []) (keeps : node.KeepsRule) : node.WellTyped :=
  wellTyped_iff.mpr ⟨keeps, by simp [alone]⟩

theorem wellTyped_call {callee arguments : Node} (line : Nat) (called : callee.WellTyped)
    (listed : arguments.WellTyped) : (call callee arguments line).WellTyped :=
  wellTyped_iff.mpr ⟨rfl, by simpa [call] using ⟨called, listed⟩⟩

theorem wellTyped_expression {inner : Node} (wellTyped : inner.WellTyped) :
    (expression inner).WellTyped :=
  wellTyped_iff.mpr ⟨rfl, List.forall_mem_singleton.mpr wellTyped⟩

-- An operation is only built once its operands have been found to fit.
theorem wellTyped_of_operation {operator : Operator} {operands : List Node} {line : Nat}
    (wellTyped : ∀ operand ∈ operands, operand.WellTyped)
    (built : operation operator operands line = .ok node) : node.WellTyped := by
  obtain ⟨checked, rfl⟩ := operation_eq_ok_iff.mp built
  have fitting := List.forall_mem_map.mp ((expectClass_eq_ok_iff ..).mp checked)
  refine wellTyped_iff.mpr ⟨?_, wellTyped⟩
  simp only [KeepsRule, operator.expects_eq]
  exact ⟨trivial, fitting⟩

theorem wellTyped_of_test {condition : Node} (wellTyped : condition.WellTyped)
    (built : test condition = .ok node) : node.WellTyped := by
  obtain ⟨checked, rfl⟩ := test_eq_ok_iff.mp built
  have fitting : condition.operand.fits .boolean :=
    (expectClass_eq_ok_iff ..).mp checked condition.operand (List.mem_singleton_self _)
  exact wellTyped_iff.mpr
    ⟨⟨rfl, List.forall_mem_singleton.mpr fitting⟩, List.forall_mem_singleton.mpr wellTyped⟩

theorem KeepsRule.expressionList (keeps : node.KeepsRule) (kind : node.kind = .expressionList) :
    node.valueType = (sharedType (node.children.map operand)).toOption ∧
      ∃ expected, ∀ child ∈ node.children, child.operand.fits expected := by
  simp only [KeepsRule, kind] at keeps
  obtain ⟨shared, typed, shares⟩ := keeps
  obtain ⟨expected, fitting⟩ := shares.fit
  refine ⟨?_, expected, List.forall_mem_map.mp fitting⟩
  rw [typed, sharedType_eq_ok_iff.mpr shares]
  rfl

end

/-! ## Every node -/

theorem Obtainable.wellTyped {tree : Node} (obtainable : tree.Obtainable) : tree.WellTyped := by
  induction obtainable with
  | read parsed =>
    obtain ⟨-, -, -, wellTyped, -⟩ := parse_eq_ok_iff.mp parsed
    exact wellTyped
  | part _ found wellTyped => exact wellTyped.descend found
  | number | boolean | identifier => exact wellTyped_of_leaf rfl rfl
  | call line _ _ called listed => exact wellTyped_call line called listed
  | expression _ wellTyped => exact wellTyped_expression wellTyped
  | operation _ built wellTyped => exact wellTyped_of_operation wellTyped built
  | test _ built wellTyped => exact wellTyped_of_test wellTyped built

/-- At every node of an obtainable tree the type is that of its kind, and the children fit. -/
theorem Obtainable.keepsRule {tree node : Node} {path : List Nat} (obtainable : tree.Obtainable)
    (found : tree.descend? path = some node) :
    node.KeepsRule ∧
      (node.kind = .expressionList →
        node.valueType = (sharedType (node.children.map operand)).toOption ∧
          ∃ expected, ∀ child ∈ node.children, child.operand.fits expected) := by
  have keeps := (wellTyped_iff.mp (obtainable.wellTyped.descend found)).1
  exact ⟨keeps, keeps.expressionList⟩

/-- The list of a sum that was read, in a negated call built around it. -/
theorem keepsRule_of_negated_call :
    ∃ program list negation : Node, parse "(+ 1 2 x)" = .ok program ∧
      program.descend? [0, 0, 0, 1] = some list ∧
      operation .not [call (expression list) (number 3 1) 1] 7 = .ok negation ∧
      negation.descend? [0, 0, 0] = some list ∧ list.kind = .expressionList ∧ list.KeepsRule := by
  let list : Node :=
    ⟨.expressionList, some .number, 1, [], [expression (number 2 1), expression (identifier "x" 1)]⟩
  let sum : Node := ⟨.operator .add, some .number, 1, [], [expression (number 1 1), list]⟩
  let program := wrap .program (wrap .statement (expression sum))
  let called := call (expression list) (number 3 1) 1
  let negation : Node := ⟨.operator .not, some .boolean, 7, [], [called]⟩
  have parsed : parse "(+ 1 2 x)" = .ok program := by decide +kernel
  have listed : program.descend? [0, 0, 0, 1] = some list := rfl
  have built : operation .not [called] 7 = .ok negation := rfl
  have found : negation.descend? [0, 0, 0] = some list := rfl
  have part : Obtainable list := .part (.read parsed) listed
  have whole : Obtainable negation :=
    .operation (List.forall_mem_singleton.mpr (.call 1 (.expression part) (.number 3 1))) built
  exact ⟨program, list, negation, parsed, listed, built, found, rfl, (whole.keepsRule found).1⟩

end TypedLisp.Node
