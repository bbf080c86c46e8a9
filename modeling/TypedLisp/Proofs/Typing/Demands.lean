import Mathlib.Data.List.Forall2
import TypedLisp.Proofs.Reading.Faults

/-! What the rules of a tree ask of the tokens that derive it.

Three kinds of node have a rule: operators, lists of operands and tests. Each one
in a derived tree comes from a form found among the tokens, so its rule can be
stated of the expressions in that form. The other nodes hold the type of their kind.
-/

set_option autoImplicit false

namespace TypedLisp

/-- The name an operand goes by: its type, or the kind of the expression where it has none. -/
inductive Node.Shows : Node → String → Prop
  | number {node : Node} : node.valueType = some .number → Shows node "number"
  | boolean {node : Node} : node.valueType = some .boolean → Shows node "boolean"
  | unconstrained {node : Node} : node.valueType = some .unconstrained → Shows node "unconstrained"
  | conditional {node inner : Node} : node.valueType = none → node = .expression inner →
      inner.kind = .conditional → Shows node "if_expr"
  | function {node inner : Node} : node.valueType = none → node = .expression inner →
      inner.kind = .function → Shows node "fun_expr"

/-- What a rule asks: that operands fit a class, or that they fit one class together. -/
inductive Demand where
  | fit (context : String) (expected : OperandClass) (operands : List Node)
  | share (operands : List Node)

inductive Demand.Fails : Demand → TypeFault → Prop
  | misfit {context found : String} {expected : OperandClass} {before after : List Node}
      {misfit : Node} :
      (∀ operand ∈ before, operand.operand.fits expected) → ¬ misfit.operand.fits expected →
      misfit.Shows found →
      Fails (.fit context expected (before ++ misfit :: after)) (.mismatch context expected found)
  | mixed {operands : List Node} {found : List String} :
      (∀ expected, ∃ operand ∈ operands, ¬ operand.operand.fits expected) →
      List.Forall₂ Node.Shows operands found → Fails (.share operands) (.mixedList found)

theorem Node.expression_inj {first second : Node}
    (same : Node.expression first = Node.expression second) : first = second :=
  (List.cons.inj (Node.mk.inj same).2.2.2.2).1

namespace Grammar

/-- A node that stands for a form among the tokens, what its rule asks and the line of that. -/
inductive Demands (tokens : List Token) : Node → Demand → Nat → Prop
  | operation {opening head closing : Token} {operator : Operator} {inner : List Token}
      {operands : List Node} :
      opening :: head :: (inner ++ [closing]) <:+: tokens →
      Parens opening closing → head.kind = .operator operator →
      Many Expression inner operands → operator.Takes operands.length →
      Demands tokens (operation operator operands opening.line)
        (.fit operator.symbol operator.expects operands) opening.line
  | list {opening head second closing : Token} {operator : Operator} {first later : List Token}
      {operand : Node} {operands : List Node} :
      opening :: head :: (first ++ (second :: later ++ [closing])) <:+: tokens →
      Parens opening closing → head.kind = .operator operator → operator.variadic →
      Expression first operand → Many Expression (second :: later) operands →
      2 ≤ operands.length →
      Demands tokens (expressionList operands second.line) (.share operands) second.line
  | test {opening head first : Token} {later : List Token} {condition : Node} :
      opening :: head :: first :: later <:+: tokens →
      opening.kind = .leftParen → head.kind = .conditional → Expression (first :: later) condition →
      Demands tokens (.wrap .test condition) (.fit "if test expr" .boolean [condition]) first.line

def Breaks (tokens : List Token) (node : Node) (error : SourceError) : Prop :=
  ∃ demand fault, Demands tokens node demand error.line ∧ demand.Fails fault ∧
    error.fault = .illTyped fault

/-! ## Rules as demands -/

-- Only conditionals and functions have no type, so only these two go by the kind of the node inside.
theorem Expression.shows_iff {tokens : List Token} {tree : Node} (derives : Expression tokens tree)
    {name : String} : tree.Shows name ↔ tree.operand.name = name := by
  have typed {node : Node} {valueType : ValueType} (settled : node.valueType = some valueType) :
      node.Shows name ↔ node.operand.name = name := by
    have named : node.operand.name = valueType.name := by
      simp [Operand.name, Node.operand, settled]
    rw [named]
    constructor
    · intro shows
      cases shows with
      | number other | boolean other | unconstrained other =>
        rw [settled] at other
        cases other
        rfl
      | conditional none | function none =>
        rw [settled] at none
        cases none
    · rintro rfl
      cases valueType with
      | number => exact .number settled
      | boolean => exact .boolean settled
      | unconstrained => exact .unconstrained settled
  have untyped {inner : Node} (none : inner.valueType = none)
      (kind : inner.kind = .conditional ∨ inner.kind = .function) :
      (Node.expression inner).Shows name ↔ (Node.expression inner).operand.name = name := by
    have named : (Node.expression inner).operand.name = inner.kind.name := by
      simp [Operand.name, Node.operand, Node.expression, none]
    rw [named]
    constructor
    · intro shows
      cases shows with
      | number other | boolean other | unconstrained other =>
        cases other.symm.trans none
      | conditional _ same kind' | function _ same kind' =>
        rw [Node.expression_inj same, kind']
        rfl
    · rintro rfl
      rcases kind with kind | kind <;> rw [kind]
      · exact .conditional none rfl kind
      · exact .function none rfl kind
  cases derives with
  | number | boolean | identifier | operation | namedCall | functionCall => exact typed rfl
  | conditional => exact untyped rfl (.inl rfl)
  | function form =>
    cases form
    exact untyped rfl (.inr rfl)

theorem Demand.fails_fit_iff {operands : List Node} {context : String} {expected : OperandClass}
    {fault : TypeFault}
    (derived : ∀ operand ∈ operands, ∀ name, operand.Shows name ↔ operand.operand.name = name) :
    (Demand.fit context expected operands).Fails fault ↔
      expectClass context expected (operands.map Node.operand) = .error fault := by
  rw [expectClass_eq_error_iff]
  constructor
  · intro fails
    cases fails with
    | @misfit _ found _ before after misfit fitting unfit shows =>
      have name := (derived misfit (by simp) found).mp shows
      exact ⟨before.map Node.operand, misfit.operand, after.map Node.operand, by simp,
        by simpa using fitting, unfit, by rw [name]⟩
  · rintro ⟨before, misfit, after, split, fitting, unfit, rfl⟩
    obtain ⟨first, second, rfl, rfl, same⟩ := List.map_eq_append_iff.mp split
    obtain ⟨node, rest, rfl, rfl, rfl⟩ := List.map_eq_cons_iff.mp same
    exact .misfit (by simpa using fitting) unfit ((derived node (by simp) _).mpr rfl)

theorem Demand.fails_share_iff {operands : List Node} {fault : TypeFault}
    (derived : ∀ operand ∈ operands, ∀ name, operand.Shows name ↔ operand.operand.name = name) :
    (Demand.share operands).Fails fault ↔
      sharedType (operands.map Node.operand) = .error fault := by
  have shown {found : List String} :
      List.Forall₂ Node.Shows operands found ↔
        found = (operands.map Node.operand).map Operand.name := by
    induction operands generalizing found with
    | nil => simp
    | cons operand operands ih =>
      rw [List.forall_mem_cons] at derived
      simp [List.forall₂_cons_left_iff, derived.1, ih derived.2, eq_comm]
  rw [sharedType_eq_error_iff]
  constructor
  · intro fails
    cases fails with
    | mixed unfit shows => exact ⟨by simpa using unfit, by rw [shown.mp shows]⟩
  · rintro ⟨unfit, rfl⟩
    exact .mixed (by simpa using unfit) (shown.mpr rfl)

theorem Demands.rule_eq_error_iff {tokens : List Token} {node : Node} {demand : Demand} {line : Nat}
    (demands : Demands tokens node demand line) {fault : TypeFault} :
    node.rule = .error fault ↔ demand.Fails fault := by
  cases demands with
  | @operation opening head closing operator inner operands piece parens kind many takes =>
    have single : ∀ operand ∈ operands, operand.kind ≠ .expressionList :=
      many.forall_mem fun derives => by simp [derives.kind_eq]
    rw [Demand.fails_fit_iff (many.forall_mem fun derives _ => derives.shows_iff),
      Reader.rule_operation operator opening.line single, operator.expects_eq]
  | @list opening head second closing operator first later operand operands piece parens kind variadic
      derives many several =>
    rw [Demand.fails_share_iff (many.forall_mem fun derives _ => derives.shows_iff)]
    simp only [Node.rule, expressionList]
    cases sharedType (operands.map Node.operand) <;> simp [Except.map]
  | test piece opens kind derives =>
    rw [Demand.fails_fit_iff (List.forall_mem_singleton.mpr fun _ => derives.shows_iff)]
    rfl

theorem Demands.line_eq {tokens : List Token} {node : Node} {demand : Demand} {line : Nat}
    (demands : Demands tokens node demand line) : node.line = line := by
  cases demands with
  | operation | list => rfl
  | test piece opens kind derives =>
    obtain ⟨first, rest, same, -, line⟩ := derives.starts
    cases same
    exact line.symm

theorem Demands.hasRule {tokens : List Token} {node : Node} {demand : Demand} {line : Nat}
    (demands : Demands tokens node demand line) : node.kind.hasRule := by
  cases demands <;> rfl

theorem Demands.mono {tokens longer : List Token} {node : Node} {demand : Demand} {line : Nat}
    (demands : Demands tokens node demand line) (within : tokens <:+: longer) :
    Demands longer node demand line := by
  cases demands with
  | operation piece parens kind many takes =>
    exact .operation (piece.trans within) parens kind many takes
  | list piece parens kind variadic derives many several =>
    exact .list (piece.trans within) parens kind variadic derives many several
  | test piece opens kind derives => exact .test (piece.trans within) opens kind derives

theorem Demands.breaks_iff {tokens : List Token} {node : Node} {demand : Demand} {line : Nat}
    (demands : Demands tokens node demand line) {error : SourceError} :
    Breaks tokens node error ↔ node.violation? = some error := by
  rw [Node.violation?_eq_some_iff]
  constructor
  · rintro ⟨demand', fault, demands', fails, same⟩
    refine ⟨fault, demands'.rule_eq_error_iff.mpr fails, ?_⟩
    rw [demands'.line_eq, ← same]
  · rintro ⟨fault, failed, rfl⟩
    have here := demands.line_eq
    exact ⟨demand, fault, here ▸ demands, demands.rule_eq_error_iff.mp failed, rfl⟩

end Grammar

end TypedLisp
