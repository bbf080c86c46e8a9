import TypedLisp.Proofs.Lexing.Joining
import TypedLisp.Proofs.Writing.Adequacy

/-! Operators applied to expressions that are read elsewhere.

An expression that is a text of its own derives the same tree as an operand, but for
its lines, and lines play no part in what is accepted. So the application has no
fault but those that its operands add to it: the later ones may not share a type, or
one may not fit. As operands that all fit a class do share a type, the second fault
alone decides.
-/

set_option autoImplicit false

namespace TypedLisp

open Grammar

/-! ## Trees on no line -/

section
variable {source text : String} {tokens : List Token} {tree : Node}

theorem feed_of_parse (parsed : parse source = .ok tree) :
    ∃ lined last, tokenize source = .ok lined ∧ Reader.start.feed lined = .ok last ∧
      last.program? = some tree := by
  obtain ⟨lined, lexes, program⟩ := program_of_parse parsed
  rw [parse_of_program lexes program, Reader.firstOr_eq_ok_iff] at parsed
  obtain ⟨last, ended, read⟩ := program.reads
  rw [parsed.1, Reader.firstOr_nil] at read
  exact ⟨lined, last, lexes, read, ended⟩

theorem HasTokens.derives (has : HasTokens source tokens) (parsed : parse source = .ok tree) :
    Program tokens tree.unlined := by
  obtain ⟨lined, last, lexes, taken, ended⟩ := feed_of_parse parsed
  obtain rfl := has.unique ⟨lined, lexes, rfl⟩
  have moved := Reader.feed_relocate (fun _ => 0) [] Reader.start lined
  rw [taken] at moved
  refine Reader.program_of_feed moved ?_
  rw [Reader.program?_mapLines, ended]
  rfl

-- Types and nesting are those of any tree on other lines, and only they decide.
theorem HasTokens.isRead_iff (has : HasTokens source tokens) (program : Program tokens tree) :
    (∃ parsed, parse source = .ok parsed) ↔ tree.faultsFrom 0 false = [] := by
  have faultless : tree.faultsFrom 0 false = [] ↔ tree.WellTyped ∧ tree.nesting ≤ 128 := by
    rw [Node.faultsFrom_eq_nil_iff, program.covers.wellTyped_iff, and_comm]
    rfl
  rw [faultless]
  constructor
  · rintro ⟨parsed, read⟩
    obtain rfl := program.unique (has.derives read)
    obtain ⟨-, -, -, wellTyped, shallow⟩ := parse_eq_ok_iff.mp read
    rw [Node.unlined, Node.wellTyped_mapLines, Node.nesting_mapLines]
    exact ⟨wellTyped, shallow⟩
  · rintro ⟨wellTyped, shallow⟩
    obtain ⟨lined, lexes, rfl⟩ := has
    obtain ⟨parsed, read, -⟩ := parse_of_unlined lexes program wellTyped shallow
    exact ⟨parsed, read⟩

end

/-! ## Operands -/

/-- A text is an expression and nothing else, and there is room for a form around it. -/
structure IsOperand (text : String) (expression : Node) : Prop where
  parsed : parse text = .ok (.wrap .program (.wrap .statement expression))
  kind : expression.kind = .expression
  shallow : expression.nesting < Reader.nestingLimit

section
variable {text : String} {tokens : List Token} {expression : Node}

theorem Grammar.Statement.of_bare (kind : expression.kind = .expression)
    (derives : Statement tokens (.wrap .statement expression)) : Expression tokens expression := by
  generalize wrapped : Node.wrap .statement expression = statement at derives
  have children := congrArg Node.children wrapped
  cases derives with
  | bare derives =>
    cases List.singleton_inj.mp children
    exact derives
  | definition | printNum | printBool =>
    cases List.singleton_inj.mp children
    cases kind

theorem Grammar.Program.of_bare (kind : expression.kind = .expression)
    (program : Program tokens (.wrap .program (.wrap .statement expression))) :
    Expression tokens expression := by
  obtain ⟨statements, many, made⟩ := program
  have single : ∀ statement ∈ statements, statement.kind ≠ .statementList :=
    many.forall_mem fun derives => by cases derives <;> simp [Node.wrap, Node.untyped]
  have listed : [.wrap .statement expression] = statements := Node.statements_of_program? single made
  subst listed
  cases many with
  | cons derives others =>
    cases others
    rw [List.append_nil]
    exact derives.of_bare kind

theorem IsOperand.unlined (operand : IsOperand text expression) (has : HasTokens text tokens) :
    Program tokens (.wrap .program (.wrap .statement expression.unlined)) := by
  have program := has.derives operand.parsed
  rwa [Node.unlined, Node.mapLines_wrap, Node.mapLines_wrap] at program

theorem IsOperand.derives (operand : IsOperand text expression) (has : HasTokens text tokens) :
    Expression tokens expression.unlined := by
  apply (operand.unlined has).of_bare
  rw [Node.unlined, Node.kind_mapLines]
  exact operand.kind

theorem IsOperand.faultsFrom_eq_nil (operand : IsOperand text expression)
    (has : HasTokens text tokens) : expression.unlined.faultsFrom 1 false = [] := by
  have faultless := (has.isRead_iff (operand.unlined has)).mp ⟨_, operand.parsed⟩
  rw [Reader.faultsFrom_wrap 0 .program rfl, Reader.faultsFrom_wrap 0 .statement rfl,
    Node.faultsFrom_eq_nil_iff] at faultless
  have shallow : expression.unlined.nesting < Reader.nestingLimit :=
    (Node.nesting_mapLines _ expression).symm ▸ operand.shallow
  rw [Node.nesting] at shallow
  rw [Node.faultsFrom_of_shallow expression.unlined (by omega)]
  exact faultless.2

end

/-! ## Operators -/

namespace Reader

variable {operator : Operator} {operands : List Node}

theorem violation?_expressionList {expected : OperandClass} (line : Nat)
    (fitting : ∀ operand ∈ operands, operand.operand.fits expected) :
    (expressionList operands line).violation? = none := by
  have shared := sharedType_eq_ok_iff.mpr (shares_typeWithin (List.forall_mem_map.mpr fitting))
  have rule : (expressionList operands line).rule =
      (sharedType (operands.map Node.operand)).map fun _ => () := rfl
  rw [Node.violation?_eq_none_iff, rule, shared]
  rfl

theorem listFaults_eq_nil (fitting : ∀ operand ∈ operands, operand.operand.fits operator.expects) :
    listFaults operator operands = [] := by
  unfold listFaults
  split
  next first second third rest =>
    rw [List.forall_mem_cons] at fitting
    rw [violation?_expressionList second.line fitting.2, Option.toList_none, ite_self]
  next => rfl

/-- Grouped and looked at in two stages, operands are accepted as they are one by one. -/
theorem operationFaults_eq_nil_iff (line : Nat)
    (single : ∀ operand ∈ operands, operand.kind ≠ .expressionList) :
    listFaults operator operands ++ (operation operator operands line).violation?.toList = [] ↔
      ∀ operand ∈ operands, operand.operand.fits operator.expects := by
  have rule : (operation operator operands line).violation? = none ↔
      ∀ operand ∈ operands, operand.operand.fits operator.expects := by
    rw [Node.violation?_eq_none_iff, rule_operation operator line single, expectClass_eq_ok_iff,
      List.forall_mem_map, operator.expects_eq]
  rw [List.append_eq_nil_iff, Option.toList_eq_nil_iff, rule]
  constructor
  · exact And.right
  · intro fitting
    exact ⟨listFaults_eq_nil fitting, fitting⟩

end Reader

/-! ## Applications -/

/-- A source is an operator applied to operands that are written as some texts are. -/
def Applies (operator : Operator) (texts : List String) (source : String) : Prop :=
  ∃ opening head closing parts,
    HasTokens source (opening :: head :: (parts.flatten ++ [closing])) ∧
      Parens opening closing ∧ head.kind = .operator operator ∧ List.Forall₂ HasTokens texts parts

def applicationText (operator : Operator) (texts : List String) : String :=
  " ".intercalate ("(" :: operator.symbol :: (texts ++ [")"]))

section
variable {operator : Operator} {operands : List (String × Node)}

theorem exists_parts (each : ∀ operand ∈ operands, IsOperand operand.1 operand.2) :
    ∃ parts, List.Forall₂ HasTokens (operands.map Prod.fst) parts := by
  induction operands with
  | nil => exact ⟨[], .nil⟩
  | cons operand operands ih =>
    rw [List.forall_mem_cons] at each
    obtain ⟨lined, lexes, -⟩ := program_of_parse each.1.parsed
    obtain ⟨parts, has⟩ := ih each.2
    exact ⟨_, .cons ⟨lined, lexes, rfl⟩ has⟩

theorem applies_applicationText (each : ∀ operand ∈ operands, IsOperand operand.1 operand.2) :
    Applies operator (operands.map Prod.fst) (applicationText operator (operands.map Prod.fst)) := by
  obtain ⟨parts, has⟩ := exists_parts each
  have closing : List.Forall₂ HasTokens [")"] [[⟨.rightParen, ")", 0⟩]] :=
    .cons (.lexeme spelled_closing) .nil
  have whole := HasTokens.intercalate
    (.cons (.lexeme spelled_opening)
      (.cons (.lexeme (spelled_operator operator)) (List.rel_append has closing)))
  exact ⟨⟨.leftParen, "(", 0⟩, ⟨.operator operator, operator.symbol, 0⟩, ⟨.rightParen, ")", 0⟩, parts,
    by simpa [applicationText] using whole, ⟨rfl, rfl⟩, rfl, has⟩

-- The operands derive one by one what they derive alone, and one level down they still have no fault.
theorem many_operands (each : ∀ operand ∈ operands, IsOperand operand.1 operand.2)
    {parts : List (List Token)} (has : List.Forall₂ HasTokens (operands.map Prod.fst) parts) :
    Many Expression parts.flatten (operands.map fun operand => operand.2.unlined) ∧
      Node.faultsAll 1 false (operands.map fun operand => operand.2.unlined) = [] := by
  induction operands generalizing parts with
  | nil =>
    cases has
    exact ⟨.nil, rfl⟩
  | cons operand operands ih =>
    rw [List.forall_mem_cons] at each
    cases has with
    | cons first rest =>
      obtain ⟨many, faultless⟩ := ih each.2 rest
      refine ⟨.cons (each.1.derives first) many, ?_⟩
      rw [List.map_cons, Reader.faultsAll_cons, each.1.faultsFrom_eq_nil first, faultless,
        List.append_nil]

theorem Applies.isRead_iff {source : String} (variadic : operator.variadic)
    (several : 2 ≤ operands.length) (each : ∀ operand ∈ operands, IsOperand operand.1 operand.2)
    (applies : Applies operator (operands.map Prod.fst) source) :
    (∃ tree, parse source = .ok tree) ↔
      ∀ operand ∈ operands, operand.2.operand.fits operator.expects := by
  obtain ⟨opening, head, closing, parts, has, parens, kind, written⟩ := applies
  obtain ⟨many, faultless⟩ := many_operands each written
  have takes : operator.Takes (operands.map fun operand => operand.2.unlined).length := by
    rw [List.length_map]
    cases operator <;> first | exact several | cases variadic
  have program := Program.single (.bare (.operation parens kind many takes))
  have single : ∀ operand ∈ operands.map fun operand => operand.2.unlined,
      operand.kind ≠ .expressionList :=
    many.forall_mem fun derives => by simp [derives.kind_eq]
  rw [has.isRead_iff program, Reader.faultsFrom_wrap 0 .program rfl,
    Reader.faultsFrom_wrap 0 .statement rfl, Reader.faultsFrom_expression,
    Reader.faultsFrom_operation, if_pos (by decide), faultless, List.nil_append, List.nil_append,
    Reader.operationFaults_eq_nil_iff opening.line single, List.forall_mem_map]
  simp only [Node.unlined, Node.operand_mapLines]

end

/-- Operands of a variadic operator are accepted in a list as they are one by one. -/
theorem application_read_iff {operator : Operator} (variadic : operator.variadic)
    {operands : List (String × Node)} (several : 2 ≤ operands.length)
    (each : ∀ operand ∈ operands, IsOperand operand.1 operand.2) :
    Applies operator (operands.map Prod.fst)
        (applicationText operator (operands.map Prod.fst)) ∧
      ∀ source, Applies operator (operands.map Prod.fst) source →
        ((∃ tree, parse source = .ok tree) ↔
          ∀ operand ∈ operands, operand.2.operand.fits operator.expects) ∧
        ((∃ tree, parse source = .ok tree) ↔
          expectClass operator.symbol operator.expects
            (operands.map fun operand => operand.2.operand) = .ok ()) ∧
        ∀ others : List (String × Node), 2 ≤ others.length →
          (∀ operand, operand ∈ others ↔ operand ∈ operands) →
          ∀ other, Applies operator (others.map Prod.fst) other →
            ((∃ tree, parse other = .ok tree) ↔ ∃ tree, parse source = .ok tree) := by
  refine ⟨applies_applicationText each, fun source applies => ?_⟩
  have read := applies.isRead_iff variadic several each
  refine ⟨read, ?_, ?_⟩
  · rw [read, expectClass_eq_ok_iff, List.forall_mem_map]
  · intro others several' same other applies'
    have each' : ∀ operand ∈ others, IsOperand operand.1 operand.2 :=
      fun operand member => each operand ((same operand).mp member)
    rw [applies'.isRead_iff variadic several' each', read]
    exact forall_congr' fun operand => by rw [same]

theorem application_read_iff_sum :
    (∃ tree, parse (applicationText .add ["1", "x"]) = .ok tree) ∧
      ((∃ tree, parse (applicationText .add ["x", "1", "x"]) = .ok tree) ↔
        ∃ tree, parse (applicationText .add ["1", "x"]) = .ok tree) := by
  let one : String × Node := ("1", .expression (.number 1 1))
  let name : String × Node := ("x", .expression (.identifier "x" 1))
  have isOne : IsOperand one.1 one.2 := ⟨by decide +kernel, rfl, by decide⟩
  have isName : IsOperand name.1 name.2 := ⟨by decide +kernel, rfl, by decide⟩
  have each : ∀ operand ∈ [one, name], IsOperand operand.1 operand.2 := by simp [isOne, isName]
  have each' : ∀ operand ∈ [name, one, name], IsOperand operand.1 operand.2 := by
    simp [isOne, isName]
  have variadic : Operator.add.variadic := rfl
  obtain ⟨applies, read⟩ := application_read_iff variadic (by decide) each
  obtain ⟨applies', -⟩ := application_read_iff variadic (by decide) each'
  obtain ⟨fits, -, regrouped⟩ := read _ applies
  refine ⟨fits.mpr (by decide), ?_⟩
  apply regrouped [name, one, name] (by decide) _ _ applies'
  simp [or_comm]

end TypedLisp
