import TypedLisp.Proofs.Grammar
import TypedLisp.Proofs.Typing.Operands
import TypedLisp.Reader.Step

/-! The rules that the nodes of a tree keep, and the order in which they are looked at.

A node is complete after its children, so type rules are looked at in postorder.
The nesting limit is looked at as a form is opened, before anything in it. The
faults of a tree are listed in that order, of which a reader reports the first.
-/

set_option autoImplicit false

namespace TypedLisp

def NodeKind.isCall : NodeKind → Bool
  | .call => true
  | _ => false

/-- Whether a kind counts as a nested form; a function that is called shares the place of its call. -/
def NodeKind.nests (called : Bool) : NodeKind → Bool
  | .operator _ | .conditional | .call => true
  | .function => !called
  | _ => false

def NodeKind.hasRule : NodeKind → Bool
  | .operator _ | .expressionList | .test => true
  | _ => false

def NodeKind.isPlain (kind : NodeKind) : Bool :=
  !kind.nests false && !kind.hasRule

namespace Node

mutual

def postorder : Node → List Node
  | ⟨kind, valueType, line, leaves, children⟩ =>
      postorderAll children ++ [⟨kind, valueType, line, leaves, children⟩]

def postorderAll : List Node → List Node
  | [] => []
  | node :: siblings => postorder node ++ postorderAll siblings

end

mutual

/-- The number of forms around each other in a tree, which may be what a call calls. -/
def nestingFrom (called : Bool) : Node → Nat
  | ⟨kind, _, _, _, children⟩ =>
      nestingAll kind.isCall children + if kind.nests called then 1 else 0

def nestingAll (called : Bool) : List Node → Nat
  | [] => 0
  | node :: siblings => max (nestingFrom called node) (nestingAll called siblings)

end

def nesting (node : Node) : Nat :=
  node.nestingFrom false

/-! ## Type rules -/

def members (operand : Node) : List Node :=
  match operand.kind with
  | .expressionList => operand.children
  | _ => [operand]

def operands (node : Node) : List Node :=
  node.children.flatMap members

def rule (node : Node) : Except TypeFault Unit :=
  match node.kind with
  | .operator operator =>
      expectClass operator.symbol operator.operandClass (node.operands.map operand)
  | .expressionList => (sharedType (node.children.map operand)).map fun _ => ()
  | .test => expectClass "if test expr" .boolean (node.children.map operand)
  | _ => .ok ()

/-- The fault of a node that breaks its rule. -/
def violation? (node : Node) : Option SourceError :=
  match node.rule with
  | .ok () => none
  | .error fault => some ⟨.illTyped fault, node.line⟩

/-- A node has the type of its kind, and its children are what its kind asks for. -/
def KeepsRule (node : Node) : Prop :=
  match node.kind with
  | .number => node.valueType = some .number
  | .boolean => node.valueType = some .boolean
  | .identifier | .call => node.valueType = some .unconstrained
  | .expression => node.children.map (·.valueType) = [node.valueType]
  | .operator operator =>
      node.valueType = some operator.expects.valueType ∧
        ∀ child ∈ node.children, child.operand.fits operator.expects
  | .expressionList =>
      ∃ shared, node.valueType = some shared ∧ Shares (node.children.map operand) shared
  | .test => node.valueType = none ∧ ∀ child ∈ node.children, child.operand.fits .boolean
  | _ => node.valueType = none

def WellTyped (tree : Node) : Prop :=
  ∀ node ∈ tree.postorder, node.KeepsRule

/-! ## Faults in order -/

mutual

/-- The faults of a tree within `depth` forms, in the order in which a reader comes upon them. -/
def faultsFrom (depth : Nat) (called : Bool) : Node → List SourceError
  | ⟨kind, valueType, line, leaves, children⟩ =>
      if kind.nests called then
        (if depth < Reader.nestingLimit then [] else [⟨.nestedTooDeep, line⟩]) ++
          (faultsAll (depth + 1) kind.isCall children ++
            (violation? ⟨kind, valueType, line, leaves, children⟩).toList)
      else
        faultsAll depth kind.isCall children ++
          (violation? ⟨kind, valueType, line, leaves, children⟩).toList

def faultsAll (depth : Nat) (called : Bool) : List Node → List SourceError
  | [] => []
  | node :: siblings => faultsFrom depth called node ++ faultsAll depth called siblings

end

def violations (nodes : List Node) : List SourceError :=
  nodes.filterMap violation?

theorem postorder_eq (node : Node) : node.postorder = postorderAll node.children ++ [node] := by
  cases node; rfl

theorem faultsFrom_of_not_nests {node : Node} {called : Bool} (flat : node.kind.nests called = false)
    (depth : Nat) :
    node.faultsFrom depth called =
      faultsAll depth node.kind.isCall node.children ++ node.violation?.toList := by
  cases node
  simp only [faultsFrom] at flat ⊢
  rw [if_neg (by simp [flat])]

theorem faultsFrom_of_nests {node : Node} {called : Bool} (form : node.kind.nests called)
    (depth : Nat) :
    node.faultsFrom depth called =
      (if depth < Reader.nestingLimit then [] else [⟨.nestedTooDeep, node.line⟩]) ++
        (faultsAll (depth + 1) node.kind.isCall node.children ++ node.violation?.toList) := by
  cases node
  simp only [faultsFrom] at form ⊢
  rw [if_pos form]

theorem members_of_ne {operand : Node} (single : operand.kind ≠ .expressionList) :
    operand.members = [operand] := by
  unfold members
  split
  next kind => exact absurd kind single
  next => rfl

theorem flatMap_members {operands : List Node}
    (single : ∀ operand ∈ operands, operand.kind ≠ .expressionList) :
    operands.flatMap members = operands := by
  induction operands with
  | nil => rfl
  | cons operand operands ih =>
    rw [List.forall_mem_cons] at single
    rw [List.flatMap_cons, members_of_ne single.1, ih single.2]
    rfl

theorem violation?_eq_none_iff {node : Node} : node.violation? = none ↔ node.rule = .ok () := by
  unfold violation?
  cases node.rule <;> simp

theorem violation?_eq_some_iff {node : Node} {error : SourceError} :
    node.violation? = some error ↔
      ∃ fault, node.rule = .error fault ∧ error = ⟨.illTyped fault, node.line⟩ := by
  unfold violation?
  cases node.rule <;> simp [eq_comm]

theorem violation?_of_not_hasRule {node : Node} (free : node.kind.hasRule = false) :
    node.violation? = none := by
  unfold violation? rule
  cases kind : node.kind <;> simp_all [NodeKind.hasRule]

theorem faultsFrom_of_isPlain {node : Node} (plain : node.kind.isPlain) (called : Bool) (depth : Nat) :
    node.faultsFrom depth called = faultsAll depth false node.children := by
  have flat : node.kind.nests called = false ∧ node.kind.hasRule = false ∧ node.kind.isCall = false := by
    cases kind : node.kind <;>
      simp_all [NodeKind.isPlain, NodeKind.nests, NodeKind.hasRule, NodeKind.isCall]
  rw [faultsFrom_of_not_nests flat.1, violation?_of_not_hasRule flat.2.1, flat.2.2]
  exact List.append_nil _

theorem violations_append (first second : List Node) :
    violations (first ++ second) = violations first ++ violations second :=
  List.filterMap_append

-- A form is looked at on both sides of its children, for its depth before and for its rule after.
-- The induction keeps the depth and the nesting below it together within the limit.
mutual

/-- Within the nesting limit only type rules can be broken, and those in postorder. -/
theorem faultsFrom_of_shallow {called : Bool} : ∀ {depth : Nat} (node : Node),
    depth + node.nestingFrom called ≤ Reader.nestingLimit →
    node.faultsFrom depth called = violations node.postorder
  | depth, ⟨kind, valueType, line, leaves, children⟩, shallow => by
      have own (node : Node) : violations [node] = node.violation?.toList := by
        cases found : node.violation? <;> simp [violations, found]
      rw [nestingFrom] at shallow
      rw [faultsFrom, postorder, violations_append, own]
      split
      next form =>
        rw [if_pos form] at shallow
        rw [if_pos (by omega), List.nil_append, faultsAll_of_shallow children (by omega)]
      next flat =>
        rw [faultsAll_of_shallow children (by omega)]

theorem faultsAll_of_shallow {called : Bool} : ∀ {depth : Nat} (nodes : List Node),
    depth + nestingAll called nodes ≤ Reader.nestingLimit →
    faultsAll depth called nodes = violations (postorderAll nodes)
  | _, [], _ => rfl
  | depth, node :: siblings, shallow => by
      rw [nestingAll] at shallow
      rw [faultsAll, postorderAll, violations_append, faultsFrom_of_shallow node (by omega),
        faultsAll_of_shallow siblings (by omega)]

end

mutual

theorem faultsFrom_ne_nil_of_deep {called : Bool} : ∀ {depth : Nat} (node : Node),
    depth ≤ Reader.nestingLimit → Reader.nestingLimit < depth + node.nestingFrom called →
    node.faultsFrom depth called ≠ []
  | depth, ⟨kind, valueType, line, leaves, children⟩, within, deep => by
      rw [nestingFrom] at deep
      rw [faultsFrom]
      split
      next form =>
        rw [if_pos form] at deep
        by_cases room : depth < Reader.nestingLimit
        · have below : faultsAll (depth + 1) kind.isCall children ≠ [] :=
            faultsAll_ne_nil_of_deep children room (by omega)
          simp [below]
        · simp [room]
      next flat =>
        rw [if_neg flat] at deep
        have below : faultsAll depth kind.isCall children ≠ [] :=
          faultsAll_ne_nil_of_deep children within (by omega)
        simp [below]

theorem faultsAll_ne_nil_of_deep {called : Bool} : ∀ {depth : Nat} (nodes : List Node),
    depth ≤ Reader.nestingLimit → Reader.nestingLimit < depth + nestingAll called nodes →
    faultsAll depth called nodes ≠ []
  | depth, [], within, deep => by
      rw [nestingAll] at deep
      omega
  | depth, node :: siblings, within, deep => by
      rw [nestingAll] at deep
      rw [faultsAll]
      by_cases here : Reader.nestingLimit < depth + node.nestingFrom called
      · simp [faultsFrom_ne_nil_of_deep node within here]
      · have later : faultsAll depth called siblings ≠ [] :=
          faultsAll_ne_nil_of_deep siblings within (by omega)
        simp [later]

end

/-- A tree has no fault if it is shallow and breaks no rule. -/
theorem faultsFrom_eq_nil_iff (tree : Node) :
    tree.faultsFrom 0 false = [] ↔
      tree.nesting ≤ Reader.nestingLimit ∧ violations tree.postorder = [] := by
  by_cases shallow : tree.nesting ≤ Reader.nestingLimit
  · rw [faultsFrom_of_shallow tree (by unfold nesting at shallow; omega)]
    simp [shallow]
  · have deep : tree.faultsFrom 0 false ≠ [] :=
      faultsFrom_ne_nil_of_deep tree (Nat.zero_le _) (by unfold nesting at shallow; omega)
    simp [shallow, deep]

end Node

end TypedLisp
