import TypedLisp.Proofs.Typing.Demands

/-! The nodes of a derived tree: their types, and the forms behind their rules.

Building a tree settles the type of each node by its kind and its children. In such
a tree the nodes keep their rules exactly where no rule reports a violation. A walk
over the derivation finds for each node with a rule the form that it comes from.
-/

set_option autoImplicit false

namespace TypedLisp

def NodeKind.isScaffold : NodeKind → Bool
  | .operator _ | .number | .boolean | .identifier | .call | .expression | .expressionList | .test =>
      false
  | _ => true

namespace Node

/-- The type that a node has by its kind and its children. -/
def settledType (node : Node) : Option ValueType :=
  match node.kind with
  | .number => some .number
  | .boolean => some .boolean
  | .identifier | .call => some .unconstrained
  | .operator operator => some operator.expects.valueType
  | .expression => node.children.head?.bind (·.valueType)
  | .expressionList => (sharedType (node.children.map operand)).toOption
  | _ => none

/-- A node has its settled type, and one child if it is an expression. -/
structure Settled (node : Node) : Prop where
  typed : node.valueType = node.settledType
  single : node.kind = .expression → ∃ inner, node.children = [inner]

theorem settled_of_isScaffold {kind : NodeKind} (scaffold : kind.isScaffold) (line : Nat)
    (leaves : List String) (children : List Node) : Settled ⟨kind, none, line, leaves, children⟩ := by
  constructor
  · cases kind <;> simp_all [settledType, NodeKind.isScaffold]
  · rintro rfl
    simp [NodeKind.isScaffold] at scaffold

theorem Settled.fits_iff {child : Node} (settled : child.Settled) (expected : OperandClass) :
    child.operand.fits expected ↔ ∀ member ∈ child.members, member.operand.fits expected := by
  by_cases list : child.kind = .expressionList
  case neg => simp [members_of_ne list]
  have members : child.members = child.children := by simp [Node.members, list]
  have typed : child.operand.valueType = (sharedType (child.children.map operand)).toOption := by
    simp [Node.operand, settled.typed, settledType, list]
  have fits : child.operand.fits expected =
      (sharedType (child.children.map operand)).toOption.any (·.fits expected) := by
    rw [Operand.fits, typed]
  rw [members, fits]
  cases found : sharedType (child.children.map operand) with
  | ok shared =>
    have shares := sharedType_eq_ok_iff.mp found
    simpa [Except.toOption] using shares.fits_iff expected
  | error fault =>
    obtain ⟨unfit, -⟩ := sharedType_eq_error_iff.mp found
    obtain ⟨_, mapped, misfit⟩ := unfit expected
    obtain ⟨member, listed, rfl⟩ := List.mem_map.mp mapped
    simpa [Except.toOption] using ⟨member, listed, by simpa using misfit⟩

/-- Where types are settled, keeping a rule is having no violation to report. -/
theorem Settled.keepsRule_iff {node : Node} (settled : node.Settled)
    (below : ∀ child ∈ node.children, child.Settled) : node.KeepsRule ↔ node.violation? = none := by
  obtain ⟨typed, single⟩ := settled
  rw [violation?_eq_none_iff]
  unfold KeepsRule rule
  cases kind : node.kind with
  | operator operator =>
    -- The node is judged by its children, the rule by the operands in them: a list is both.
    have fits : (∀ child ∈ node.children, child.operand.fits operator.operandClass) ↔
        ∀ operand ∈ node.operands, operand.operand.fits operator.operandClass := by
      simp only [operands, List.mem_flatMap, forall_exists_index, and_imp]
      constructor
      · intro fitting operand child member listed
        exact ((below child member).fits_iff _).mp (fitting child member) operand listed
      · intro fitting child member
        exact ((below child member).fits_iff _).mpr fun operand listed =>
          fitting operand child member listed
    simp [typed, settledType, kind, fits, expectClass_eq_ok_iff, operator.expects_eq]
  | expressionList =>
    simp only [typed, settledType, kind]
    cases found : sharedType (node.children.map operand) with
    | ok shared => simpa [Except.toOption, Except.map] using sharedType_eq_ok_iff.mp found
    | error fault => simp [Except.toOption, Except.map]
  | test => simp [typed, settledType, kind, expectClass_eq_ok_iff]
  | expression =>
    obtain ⟨inner, children⟩ := single kind
    simp [typed, settledType, kind, children]
  | _ => simp [typed, settledType, kind]

/-! ## Nodes of a tree -/

@[simp] theorem postorderAll_nil : postorderAll [] = [] := rfl

@[simp] theorem postorderAll_cons (node : Node) (nodes : List Node) :
    postorderAll (node :: nodes) = node.postorder ++ postorderAll nodes := rfl

theorem mem_postorderAll {node : Node} {nodes : List Node} :
    node ∈ postorderAll nodes ↔ ∃ tree ∈ nodes, node ∈ tree.postorder := by
  induction nodes with
  | nil => simp
  | cons first rest ih => simp [ih]

theorem mem_postorder {node tree : Node} :
    node ∈ tree.postorder ↔ (∃ child ∈ tree.children, node ∈ child.postorder) ∨ node = tree := by
  rw [postorder_eq, List.mem_append, mem_postorderAll, List.mem_singleton]

mutual

theorem child_mem_postorder {node child : Node} (below : child ∈ node.children) :
    (tree : Node) → node ∈ tree.postorder → child ∈ tree.postorder
  | ⟨kind, valueType, line, leaves, children⟩, member => by
      rw [postorder, List.mem_append, List.mem_singleton] at member ⊢
      rcases member with member | rfl
      · exact .inl (child_mem_postorderAll below children member)
      · exact .inl (mem_postorderAll.mpr ⟨child, below, mem_postorder.mpr (.inr rfl)⟩)

theorem child_mem_postorderAll {node child : Node} (below : child ∈ node.children) :
    (trees : List Node) → node ∈ postorderAll trees → child ∈ postorderAll trees
  | [], member => absurd member List.not_mem_nil
  | tree :: trees, member => by
      rw [postorderAll, List.mem_append] at member ⊢
      exact member.imp (child_mem_postorder below tree) (child_mem_postorderAll below trees)

end

end Node

namespace Grammar

/-! ## The walk over a derivation -/

/-- A node of a tree that tokens derive. -/
structure Placed (tokens : List Token) (node : Node) : Prop where
  settled : node.Settled
  demands : node.kind.hasRule → ∃ demand line, Demands tokens node demand line

def Covers (tokens : List Token) (tree : Node) : Prop :=
  ∀ node ∈ tree.postorder, Placed tokens node

section
variable {tokens : List Token}

theorem covers_iff {tree : Node} :
    Covers tokens tree ↔ (∀ child ∈ tree.children, Covers tokens child) ∧ Placed tokens tree := by
  constructor
  · intro covers
    refine ⟨fun child member node within => ?_, covers tree (Node.mem_postorder.mpr (.inr rfl))⟩
    exact covers node (Node.mem_postorder.mpr (.inl ⟨child, member, within⟩))
  · rintro ⟨below, own⟩ node member
    rcases Node.mem_postorder.mp member with ⟨child, listed, within⟩ | rfl
    · exact below child listed node within
    · exact own

theorem Covers.mono {longer : List Token} {tree : Node} (covers : Covers tokens tree)
    (within : tokens <:+: longer) : Covers longer tree := by
  intro node member
  obtain ⟨settled, demands⟩ := covers node member
  refine ⟨settled, fun rule => ?_⟩
  obtain ⟨demand, line, demands⟩ := demands rule
  exact ⟨demand, line, demands.mono within⟩

theorem Placed.of_not_hasRule {node : Node} (settled : node.Settled)
    (free : node.kind.hasRule = false) : Placed tokens node :=
  ⟨settled, fun rule => by simp [free] at rule⟩

theorem Covers.scaffold {kind : NodeKind} (scaffold : kind.isScaffold) (line : Nat)
    (leaves : List String) {children : List Node}
    (below : ∀ child ∈ children, Covers tokens child) :
    Covers tokens ⟨kind, none, line, leaves, children⟩ := by
  have free : kind.hasRule = false := by
    cases kind <;> simp_all [NodeKind.isScaffold, NodeKind.hasRule]
  exact covers_iff.mpr ⟨below, .of_not_hasRule (Node.settled_of_isScaffold scaffold ..) free⟩

theorem Covers.wrap {kind : NodeKind} {inner : Node} (covers : Covers tokens inner)
    (scaffold : kind.isScaffold) : Covers tokens (.wrap kind inner) :=
  .scaffold scaffold inner.line [] (List.forall_mem_singleton.mpr covers)

theorem Covers.gather {kind : NodeKind} (scaffold : kind.isScaffold) (emptyLine : Nat)
    {items : List Node} (covers : ∀ item ∈ items, Covers tokens item) :
    Covers tokens (.gather kind emptyLine items) := by
  match items with
  | [] => exact .scaffold scaffold emptyLine ["nil"] covers
  | [item] => exact covers item (List.mem_singleton_self item)
  | first :: second :: rest => exact .scaffold scaffold first.line [] covers

theorem Covers.expression {inner : Node} (covers : Covers tokens inner) :
    Covers tokens (.expression inner) := by
  refine covers_iff.mpr ⟨List.forall_mem_singleton.mpr covers, .of_not_hasRule ?_ rfl⟩
  exact ⟨rfl, fun _ => ⟨inner, rfl⟩⟩

theorem Covers.leaf {node : Node} (alone : node.children = []) (free : node.kind.hasRule = false)
    (literal : node.kind ≠ .expression) (typed : node.valueType = node.settledType) :
    Covers tokens node := by
  refine covers_iff.mpr ⟨by simp [alone], .of_not_hasRule ⟨typed, ?_⟩ free⟩
  exact fun kind => absurd kind literal

theorem Covers.identifier (name : String) (line : Nat) : Covers tokens (.identifier name line) :=
  .leaf rfl rfl (by simp [Node.identifier]) rfl

theorem Covers.call {callee : Node} {arguments : List Node} (line closeLine : Nat)
    (covers : Covers tokens callee) (below : ∀ argument ∈ arguments, Covers tokens argument) :
    Covers tokens (call callee arguments line closeLine) := by
  have list : Covers tokens (.gather .argumentList closeLine (arguments.map (.wrap .argument))) := by
    refine .gather rfl closeLine fun item member => ?_
    obtain ⟨argument, listed, rfl⟩ := List.mem_map.mp member
    exact (below argument listed).wrap rfl
  refine covers_iff.mpr ⟨?_, .of_not_hasRule ⟨rfl, by simp [Grammar.call, Node.call]⟩ rfl⟩
  simpa [Grammar.call, Node.call] using ⟨covers, list⟩

end

theorem Covers.print {tokens : List Token} {kind : NodeKind} {printed : Node}
    (covers : Covers tokens printed) (scaffold : kind.isScaffold) (keyword : String) (line : Nat) :
    Covers tokens (.wrap .statement (.print kind keyword printed line)) :=
  .wrap (.scaffold scaffold line [keyword] (List.forall_mem_singleton.mpr covers)) rfl

theorem Many.covers {tokens : List Token} {nodes : List Node} (many : Many Covers tokens nodes) :
    ∀ node ∈ nodes, Covers tokens node := by
  induction many with
  | nil => simp
  | cons covers _ ih =>
    refine List.forall_mem_cons.mpr ⟨covers.mono (List.prefix_append ..).isInfix, fun node member => ?_⟩
    exact (ih node member).mono (List.suffix_append ..).isInfix

theorem Function.covers {tokens : List Token} {node : Node} (form : Function Covers tokens node) :
    Covers tokens node := by
  cases form with
  | @intro opening head listOpening listClosing closing parameters body node parens kind listParens
      names covers =>
    let tokens := opening :: head :: listOpening :: (parameters ++ listClosing :: (body ++ [closing]))
    have list : Covers tokens (.gather .parameterList listOpening.line (parameters.map parameter)) := by
      refine .gather rfl listOpening.line fun item member => ?_
      obtain ⟨token, _, rfl⟩ := List.mem_map.mp member
      exact (Covers.identifier token.lexeme token.line).wrap rfl
    have within : body <:+: tokens :=
      ⟨opening :: head :: listOpening :: (parameters ++ [listClosing]), [closing], by simp [tokens]⟩
    have bodies : Covers tokens (.wrap .body node) := (covers.mono within).wrap rfl
    refine .scaffold rfl opening.line [] ?_
    simpa using ⟨list, bodies⟩

theorem covers_operandNodes {opening head closing : Token} {operator : Operator} {inner : List Token}
    {operands : List Node} (parens : Parens opening closing) (kind : head.kind = .operator operator)
    (many : Many Expression inner operands) {tokens : List Token}
    (piece : opening :: head :: (inner ++ [closing]) <:+: tokens)
    (covers : ∀ operand ∈ operands, Covers tokens operand) :
    ∀ node ∈ operandNodes operator operands, Covers tokens node := by
  rcases operandNodes_cases operator operands with
    ⟨-, flat⟩ | ⟨first, second, third, rest, variadic, rfl, listed⟩
  · rwa [flat]
  -- The tokens of the list are those after the first operand.
  rw [List.forall_mem_cons] at covers
  have list : Covers tokens (expressionList (second :: third :: rest) second.line) := by
    refine covers_iff.mpr ⟨covers.2, ⟨rfl, by simp [expressionList]⟩, fun _ => ?_⟩
    cases many with
    | @cons firstTokens later _ _ derives others =>
      obtain ⟨start, more, rfl, line⟩ :
          ∃ start more, later = start :: more ∧ start.line = second.line := by
        cases others with
        | cons derives' _ =>
          obtain ⟨start, more, rfl, -, line⟩ := derives'.starts
          exact ⟨start, _, rfl, line⟩
      rw [List.append_assoc] at piece
      rw [← line]
      exact ⟨_, _, .list piece parens kind variadic derives others (by simp)⟩
  rw [listed]
  exact List.forall_mem_cons.mpr ⟨covers.1, List.forall_mem_singleton.mpr list⟩

/-- Every node of a derived tree is placed: by induction, as the parts of a form are pieces of it. -/
theorem Expression.covers {tokens : List Token} {tree : Node} (derives : Expression tokens tree) :
    Covers tokens tree := by
  induction derives with
  | number kind => exact .expression (.leaf rfl rfl (by simp [Node.number]) rfl)
  | boolean kind => exact .expression (.leaf rfl rfl (by simp [Node.boolean]) rfl)
  | identifier kind => exact .expression (.identifier _ _)
  | @operation opening head closing operator inner operands parens kind many takes covers =>
    have below := (covers.imp fun ⟨_, covers⟩ => covers).covers
    have within : inner <:+: opening :: head :: (inner ++ [closing]) := ⟨[opening, head], [closing], rfl⟩
    refine .expression (covers_iff.mpr ⟨?_, ⟨rfl, by simp [Grammar.operation]⟩, fun _ => ?_⟩)
    · exact covers_operandNodes parens kind many (List.infix_refl _) fun operand member =>
        (below operand member).mono within
    · exact ⟨_, _, .operation (List.infix_refl _) parens kind many takes⟩
  | @conditional opening head closing tests consequents alternatives condition consequent alternative
      parens kind derives _ _ coversTest coversConsequent coversAlternative =>
    -- Of the three branches only the test has a rule, found by its parenthesis and the keyword behind it.
    let tokens := opening :: head :: (tests ++ (consequents ++ (alternatives ++ [closing])))
    have testWithin : tests <:+: tokens :=
      ⟨[opening, head], consequents ++ (alternatives ++ [closing]), by simp [tokens]⟩
    have consequentWithin : consequents <:+: tokens :=
      ⟨opening :: head :: tests, alternatives ++ [closing], by simp [tokens]⟩
    have alternativeWithin : alternatives <:+: tokens :=
      ⟨opening :: head :: (tests ++ consequents), [closing], by simp [tokens]⟩
    have test : Covers tokens (.wrap .test condition) := by
      refine covers_iff.mpr ⟨List.forall_mem_singleton.mpr (coversTest.mono testWithin), ?_, fun _ => ?_⟩
      · exact ⟨rfl, by simp [Node.wrap, Node.untyped]⟩
      · obtain ⟨first, later, rfl, -⟩ := derives.starts
        have piece : opening :: head :: first :: later <:+: tokens :=
          ⟨[], consequents ++ (alternatives ++ [closing]), by simp [tokens]⟩
        exact ⟨_, _, .test piece parens.opens kind derives⟩
    have consequent : Covers tokens (.wrap .consequent consequent) :=
      (coversConsequent.mono consequentWithin).wrap rfl
    have alternative : Covers tokens (.wrap .alternative alternative) :=
      (coversAlternative.mono alternativeWithin).wrap rfl
    refine .expression (.scaffold rfl opening.line [] ?_)
    simpa using ⟨test, consequent, alternative⟩
  | function form covers =>
    exact .expression (covers.imp fun ⟨_, covers⟩ => covers).covers
  | @namedCall opening name closing inner arguments parens kind many covers =>
    have below := (covers.imp fun ⟨_, covers⟩ => covers).covers
    have within : inner <:+: opening :: name :: (inner ++ [closing]) := ⟨[opening, name], [closing], rfl⟩
    have callee : Covers (opening :: name :: (inner ++ [closing])) (calleeName name) :=
      (Covers.identifier name.lexeme name.line).wrap rfl
    exact .expression (.call opening.line closing.line callee fun argument member =>
      (below argument member).mono within)
  | @functionCall opening closing callee inner node arguments parens form many coversForm covers =>
    have below := (covers.imp fun ⟨_, covers⟩ => covers).covers
    have calleeWithin : callee <:+: opening :: (callee ++ (inner ++ [closing])) :=
      ⟨[opening], inner ++ [closing], by simp⟩
    have within : inner <:+: opening :: (callee ++ (inner ++ [closing])) :=
      ⟨opening :: callee, [closing], by simp⟩
    have called := (coversForm.imp fun ⟨_, covers⟩ => covers).covers.mono calleeWithin
    exact .expression (.call opening.line closing.line called fun argument member =>
      (below argument member).mono within)

/-! ## Statements and programs -/

theorem Statement.covers {tokens : List Token} {node : Node} (derives : Statement tokens node) :
    Covers tokens node := by
  cases derives with
  | bare derives => exact derives.covers.wrap rfl
  | @definition opening head name closing inner value parens kind named derives =>
    have within : inner <:+: opening :: head :: name :: (inner ++ [closing]) :=
      ⟨[opening, head, name], [closing], rfl⟩
    have named : Covers (opening :: head :: name :: (inner ++ [closing]))
        (.wrap .definedName (.identifier name.lexeme name.line)) :=
      (Covers.identifier name.lexeme name.line).wrap rfl
    refine .wrap (.scaffold rfl opening.line [] ?_) rfl
    simpa using ⟨named, derives.covers.mono within⟩
  | @printNum opening head closing inner printed parens kind derives =>
    have within : inner <:+: opening :: head :: (inner ++ [closing]) := ⟨[opening, head], [closing], rfl⟩
    exact (derives.covers.mono within).print rfl head.lexeme opening.line
  | @printBool opening head closing inner printed parens kind derives =>
    have within : inner <:+: opening :: head :: (inner ++ [closing]) := ⟨[opening, head], [closing], rfl⟩
    exact (derives.covers.mono within).print rfl head.lexeme opening.line

theorem Program.covers {tokens : List Token} {tree : Node} (program : Program tokens tree) :
    Covers tokens tree := by
  obtain ⟨statements, many, tree?⟩ := program
  have below := (many.imp fun derives => derives.covers).covers
  cases statements with
  | nil => cases tree?
  | cons first rest =>
    cases tree?
    exact (Covers.gather rfl first.line below).wrap rfl

theorem Covers.wellTyped_iff {tokens : List Token} {tree : Node} (covers : Covers tokens tree) :
    tree.WellTyped ↔ Node.violations tree.postorder = [] := by
  rw [Node.violations, List.filterMap_eq_nil_iff]
  have node {node : Node} (member : node ∈ tree.postorder) :
      node.KeepsRule ↔ node.violation? = none := by
    refine (covers node member).settled.keepsRule_iff fun child below => ?_
    exact (covers child (Node.child_mem_postorder below tree member)).settled
  exact forall₂_congr fun _ member => node member

/-- A node breaks its rule exactly with the violation that the rule reports. -/
theorem Covers.breaks_iff {tokens : List Token} {tree node : Node} (covers : Covers tokens tree)
    (member : node ∈ tree.postorder) {error : SourceError} :
    Breaks tokens node error ↔ node.violation? = some error := by
  cases rule : node.kind.hasRule with
  | true =>
    obtain ⟨demand, line, demands⟩ := (covers node member).demands rule
    exact demands.breaks_iff
  | false =>
    rw [Node.violation?_of_not_hasRule rule]
    simp only [reduceCtorEq, iff_false]
    rintro ⟨demand, fault, demands, -, -⟩
    simp [demands.hasRule] at rule

end Grammar

end TypedLisp
