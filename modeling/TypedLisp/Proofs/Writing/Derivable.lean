import TypedLisp.Proofs.Lexing.Spacing
import TypedLisp.Proofs.Node.Shapes
import TypedLisp.Proofs.Typing.Lines
import TypedLisp.Proofs.Writing.Lexemes

/-! Trees of the documented shapes are derived by what is written for them.

The lexemes of a well-typed tree with such a shape are those of tokens that derive
the tree, up to lines. The types play a part because a node carries its own, which
the rules settle.
-/

set_option autoImplicit false

namespace TypedLisp

open Grammar

/-! ## Nodes -/

section
variable {node : Node} {kind : NodeKind} {leaves : List String} {children : List Node}

theorem Node.Is.lexemes (is : node.Is kind leaves children) :
    node.lexemes = kind.opening leaves ++ (Node.lexemesAll children ++ kind.closing) := by
  rw [Node.lexemes_eq, is.kind_eq, is.leaves_eq, is.children_eq]

theorem Node.Is.unlined (is : node.Is kind leaves children) :
    node.unlined = ⟨kind, node.valueType, 0, leaves, children.map Node.unlined⟩ := by
  obtain ⟨rfl, rfl, rfl⟩ := is
  cases node
  exact congrArg _ (Node.mapLinesAll_eq _ _)

theorem Node.Is.wellTyped (is : node.Is kind leaves children) (wellTyped : node.WellTyped) :
    ∀ child ∈ children, child.WellTyped :=
  is.children_eq ▸ (Node.wellTyped_iff.mp wellTyped).2

theorem Node.Is.valueType_eq_none (is : node.Is kind leaves children) (scaffold : kind.isScaffold)
    (wellTyped : node.WellTyped) : node.valueType = none := by
  have keeps := (Node.wellTyped_iff.mp wellTyped).1
  rw [Node.KeepsRule, is.kind_eq] at keeps
  cases kind <;> simp_all [NodeKind.isScaffold]

theorem Node.Is.unlined_scaffold (is : node.Is kind leaves children) (scaffold : kind.isScaffold)
    (wellTyped : node.WellTyped) :
    node.unlined = ⟨kind, none, 0, leaves, children.map Node.unlined⟩ := by
  rw [is.unlined, is.valueType_eq_none scaffold wellTyped]

theorem line_unlined (node : Node) : node.unlined.line = 0 :=
  Node.line_mapLines _ node

theorem Node.Is.unlined_wrap {inner : Node} (is : node.Is kind [] [inner]) (scaffold : kind.isScaffold)
    (wellTyped : node.WellTyped) : node.unlined = .wrap kind inner.unlined := by
  rw [is.unlined_scaffold scaffold wellTyped, Node.wrap, line_unlined]
  rfl

theorem Node.Is.unlined_expression {inner : Node} (is : node.Is .expression [] [inner])
    (wellTyped : node.WellTyped) : node.unlined = .expression inner.unlined := by
  have keeps := (Node.wellTyped_iff.mp wellTyped).1
  simp only [Node.KeepsRule, is.kind_eq, is.children_eq, List.map_cons, List.map_nil, List.cons.injEq,
    and_true] at keeps
  have valueType : inner.unlined.valueType = inner.valueType := Node.valueType_mapLines _ inner
  rw [is.unlined, Node.expression, line_unlined, valueType, keeps]
  rfl

theorem Node.Is.unlined_test {inner : Node} (is : node.Is .test [] [inner])
    (wellTyped : node.WellTyped) : node.unlined = .wrap .test inner.unlined := by
  have keeps := (Node.wellTyped_iff.mp wellTyped).1
  simp only [Node.KeepsRule, is.kind_eq] at keeps
  rw [is.unlined, keeps.1, Node.wrap, line_unlined]
  rfl

theorem Node.Is.lexemes_silent {inner : Node} (is : node.Is kind [] [inner]) (silent : kind.isSilent) :
    node.lexemes = inner.lexemes := by
  rw [Node.lexemes_of_isSilent (is.kind_eq ▸ silent) (.inl is.leaves_eq), is.children_eq]
  exact List.append_nil _

end

/-! ## Lists -/

namespace Shape

section
variable {kind : NodeKind} {node : Node} {items : List Node}

theorem Gathered.lexemes (gathered : Gathered kind items node) (silent : kind.isSilent) :
    node.lexemes = Node.lexemesAll items := by
  cases gathered with
  | none is =>
    rw [Node.lexemes_of_isSilent (is.kind_eq ▸ silent) (.inr is.leaves_eq), is.children_eq]
  | one => exact (List.append_nil _).symm
  | more is =>
    rw [Node.lexemes_of_isSilent (is.kind_eq ▸ silent) (.inl is.leaves_eq), is.children_eq]

theorem Gathered.unlined (gathered : Gathered kind items node) (scaffold : kind.isScaffold)
    (wellTyped : node.WellTyped) : node.unlined = .gather kind 0 (items.map Node.unlined) := by
  cases gathered with
  | none is => exact is.unlined_scaffold scaffold wellTyped
  | one => rfl
  | more is =>
    rw [is.unlined_scaffold scaffold wellTyped]
    simp [Node.gather, Node.untyped, line_unlined]

theorem Gathered.wellTyped (gathered : Gathered kind items node) (wellTyped : node.WellTyped) :
    ∀ item ∈ items, item.WellTyped := by
  cases gathered with
  | none => exact List.forall_mem_nil _
  | one => exact List.forall_mem_singleton.mpr wellTyped
  | more is => exact is.wellTyped wellTyped

theorem Wrapped.lexemes {nodes : List Node} (wrapped : Wrapped kind items nodes) (silent : kind.isSilent) :
    Node.lexemesAll nodes = Node.lexemesAll items := by
  induction wrapped with
  | nil => rfl
  | cons is _ ih => rw [Node.lexemesAll_cons, Node.lexemesAll_cons, is.lexemes_silent silent, ih]

theorem Wrapped.unlined {nodes : List Node} (wrapped : Wrapped kind items nodes)
    (scaffold : kind.isScaffold) (wellTyped : ∀ node ∈ nodes, node.WellTyped) :
    nodes.map Node.unlined = (items.map Node.unlined).map (.wrap kind) := by
  induction wrapped with
  | nil => rfl
  | cons is _ ih =>
    obtain ⟨first, later⟩ := List.forall_mem_cons.mp wellTyped
    simp only [List.map_cons, is.unlined_wrap scaffold first, ih later]

theorem Wrapped.wellTyped {nodes : List Node} (wrapped : Wrapped kind items nodes)
    (wellTyped : ∀ node ∈ nodes, node.WellTyped) : ∀ item ∈ items, item.WellTyped := by
  induction wrapped with
  | nil => exact List.forall_mem_nil _
  | cons is _ ih =>
    obtain ⟨first, later⟩ := List.forall_mem_cons.mp wellTyped
    exact List.forall_mem_cons.mpr ⟨is.wellTyped first _ (List.mem_singleton_self _), ih later⟩

end

section
variable {operator : Operator} {operands children : List Node}

theorem Tail.lexemes {node : Node} (tail : Tail operands node) :
    node.lexemes = Node.lexemesAll operands := by
  cases tail with
  | one => exact (List.append_nil _).symm
  | more is =>
    rw [Node.lexemes_of_isSilent (is.kind_eq ▸ rfl) (.inl is.leaves_eq), is.children_eq]

theorem Tail.wellTyped {node : Node} (tail : Tail operands node) (wellTyped : node.WellTyped) :
    ∀ operand ∈ operands, operand.WellTyped := by
  cases tail with
  | one => exact List.forall_mem_singleton.mpr wellTyped
  | more is => exact is.wellTyped wellTyped

theorem Tail.unlined {first node : Node} {rest : List Node} (tail : Tail (first :: rest) node)
    (wellTyped : node.WellTyped) :
    node.unlined = operandTail first.unlined (rest.map Node.unlined) := by
  cases tail with
  | one => rfl
  | @more first second node rest is =>
    have keeps := (Node.wellTyped_iff.mp wellTyped).1
    simp only [Node.KeepsRule, is.kind_eq, is.children_eq] at keeps
    obtain ⟨shared, typed, shares⟩ := keeps
    have operands : ((first :: second :: rest).map Node.unlined).map Node.operand =
        (first :: second :: rest).map Node.operand :=
      Node.map_operand_mapLines _ _
    have listed : operandTail first.unlined ((second :: rest).map Node.unlined) =
        expressionList ((first :: second :: rest).map Node.unlined) first.unlined.line := rfl
    rw [listed, is.unlined, typed, expressionList, operands, sharedType_eq_ok_iff.mpr shares,
      line_unlined]
    rfl

theorem Operands.lexemes (grouped : Operands operator operands children) :
    Node.lexemesAll children = Node.lexemesAll operands := by
  cases grouped with
  | fixed => rfl
  | variadic _ tail => simp [tail.lexemes]

theorem Operands.wellTyped (grouped : Operands operator operands children)
    (wellTyped : ∀ child ∈ children, child.WellTyped) : ∀ operand ∈ operands, operand.WellTyped := by
  cases grouped with
  | fixed => exact wellTyped
  | variadic _ tail =>
    obtain ⟨first, later⟩ := List.forall_mem_cons.mp wellTyped
    exact List.forall_mem_cons.mpr ⟨first, tail.wellTyped (List.forall_mem_singleton.mp later)⟩

theorem Operands.unlined (grouped : Operands operator operands children)
    (wellTyped : ∀ child ∈ children, child.WellTyped) :
    children.map Node.unlined = operandNodes operator (operands.map Node.unlined) := by
  cases grouped with
  | fixed fixed =>
    match operands with
    | [] | [_] => rfl
    | _ :: _ :: _ => simp [operandNodes, fixed]
  | @variadic first tail later variadic grouped =>
    have below := wellTyped tail (by simp)
    cases later with
    | nil => cases grouped
    | cons second rest =>
      simp [operandNodes, variadic, grouped.unlined below]

end

/-! ## Forms -/

/-- What is written for a node are tokens that derive it, up to lines. -/
def Derivable (Item : List Token → Node → Prop) (node : Node) : Prop :=
  ∃ tokens, Spells tokens node.lexemes ∧ Item tokens node.unlined

theorem many_of_derivable {Item : List Token → Node → Prop} {nodes : List Node}
    (derivable : ∀ node ∈ nodes, Derivable Item node) :
    ∃ tokens, Spells tokens (Node.lexemesAll nodes) ∧ Many Item tokens (nodes.map Node.unlined) := by
  induction nodes with
  | nil => exact ⟨[], .nil, .nil⟩
  | cons node nodes ih =>
    obtain ⟨⟨tokens, spells, item⟩, later⟩ := List.forall_mem_cons.mp derivable
    obtain ⟨more, spells', many⟩ := ih later
    exact ⟨tokens ++ more, spells.append spells', .cons item many⟩

section
variable {node inner : Node}

theorem spells_form {head : Token} {tokens : List Token} {lexemes : List String}
    (spelled : head.IsSpelled) (spells : Spells tokens lexemes) :
    Spells (⟨.leftParen, "(", 0⟩ :: head :: (tokens ++ [⟨.rightParen, ")", 0⟩]))
      ("(" :: head.lexeme :: (lexemes ++ [")"])) :=
  .cons spelled_opening (.cons spelled (spells.append (.cons spelled_closing .nil)))

theorem parens_unlined : Parens ⟨.leftParen, "(", 0⟩ ⟨.rightParen, ")", 0⟩ :=
  ⟨rfl, rfl⟩

theorem Identifier.spelled (shape : Identifier node) (wellTyped : node.WellTyped) :
    ∃ name, Token.IsSpelled ⟨.identifier, name, 0⟩ ∧ node.lexemes = [name] ∧
      node.unlined = .identifier name 0 := by
  cases shape with
  | @intro name is word free =>
    have keeps := (Node.wellTyped_iff.mp wellTyped).1
    simp only [Node.KeepsRule, is.kind_eq] at keeps
    refine ⟨name, spelled_identifier word free, by rw [is.lexemes]; rfl, ?_⟩
    rw [is.unlined, keeps]
    rfl

theorem Named.spelled {kind : NodeKind} (shape : Named kind node) (silent : kind.isSilent)
    (scaffold : kind.isScaffold) (wellTyped : node.WellTyped) :
    ∃ name, Token.IsSpelled ⟨.identifier, name, 0⟩ ∧ node.lexemes = [name] ∧
      node.unlined = .wrap kind (.identifier name 0) := by
  cases shape with
  | intro is shape =>
    obtain ⟨name, spelled, lexemes, unlined⟩ :=
      shape.spelled (is.wellTyped wellTyped _ (List.mem_singleton_self _))
    refine ⟨name, spelled, (is.lexemes_silent silent).trans lexemes, ?_⟩
    rw [is.unlined_wrap scaffold wellTyped, unlined]

theorem parameters_spelled {parameters : List Node}
    (shapes : ∀ node ∈ parameters, Named .parameter node)
    (wellTyped : ∀ node ∈ parameters, node.WellTyped) :
    ∃ tokens, Spells tokens (Node.lexemesAll parameters) ∧
      (∀ token ∈ tokens, token.kind = .identifier) ∧
      parameters.map Node.unlined = tokens.map parameter := by
  induction parameters with
  | nil => exact ⟨[], .nil, List.forall_mem_nil _, rfl⟩
  | cons node parameters ih =>
    obtain ⟨shape, shapes⟩ := List.forall_mem_cons.mp shapes
    obtain ⟨first, wellTyped⟩ := List.forall_mem_cons.mp wellTyped
    obtain ⟨name, spelled, lexemes, unlined⟩ := shape.spelled rfl rfl first
    obtain ⟨tokens, spells, names, same⟩ := ih shapes wellTyped
    refine ⟨⟨.identifier, name, 0⟩ :: tokens, ?_, List.forall_mem_cons.mpr ⟨rfl, names⟩, ?_⟩
    · rw [Node.lexemesAll_cons, lexemes]
      exact .cons spelled spells
    · rw [List.map_cons, List.map_cons, unlined, same]
      rfl

theorem FunctionOf.wellTyped {body : Node} (shape : FunctionOf body node) (wellTyped : node.WellTyped) :
    body.WellTyped := by
  cases shape with
  | intro is _ _ around =>
    exact around.wellTyped (is.wellTyped wellTyped _ (by simp)) _ (List.mem_singleton_self _)

theorem FunctionOf.derivable {body : Node} (shape : FunctionOf body node)
    (wellTyped : node.WellTyped) (derivable : Derivable Grammar.Expression body) :
    Derivable (Function Grammar.Expression) node := by
  cases shape with
  | @intro list around parameters is gathered shapes wraps =>
    have below := is.wellTyped wellTyped
    have listed : list.WellTyped := below list (by simp)
    have bodied : around.WellTyped := below around (by simp)
    obtain ⟨names, spells, kinds, same⟩ := parameters_spelled shapes (gathered.wellTyped listed)
    obtain ⟨tokens, spells', derives⟩ := derivable
    have lexemes : node.lexemes = "(" :: "fun" :: "(" ::
        (Node.lexemesAll parameters ++ ")" :: (body.lexemes ++ [")"])) := by
      rw [is.lexemes]
      simp [NodeKind.opening, NodeKind.closing, gathered.lexemes, wraps.lexemes, NodeKind.isSilent]
    have unlined : node.unlined = Grammar.function names 0 body.unlined 0 := by
      rw [is.unlined_scaffold rfl wellTyped]
      simp [Grammar.function, Node.untyped, gathered.unlined rfl listed, same,
        wraps.unlined_wrap rfl bodied]
    refine ⟨⟨.leftParen, "(", 0⟩ :: ⟨.function, "fun", 0⟩ :: ⟨.leftParen, "(", 0⟩ ::
      (names ++ ⟨.rightParen, ")", 0⟩ :: (tokens ++ [⟨.rightParen, ")", 0⟩])), ?_, ?_⟩
    · rw [lexemes]
      exact .cons spelled_opening (.cons spelled_function (.cons spelled_opening
        (spells.append (.cons spelled_closing (spells'.append (.cons spelled_closing .nil))))))
    · rw [unlined]
      exact .intro parens_unlined rfl parens_unlined kinds derives

section
variable {callee : Node} {arguments : List Node}

theorem CallOf.wellTyped (shape : CallOf callee arguments node) (wellTyped : node.WellTyped) :
    callee.WellTyped ∧ ∀ argument ∈ arguments, argument.WellTyped := by
  cases shape with
  | @intro list items is gathered wraps =>
    have below := is.wellTyped wellTyped
    exact ⟨below callee (by simp), wraps.wellTyped (gathered.wellTyped (below list (by simp)))⟩

theorem CallOf.lexemes (shape : CallOf callee arguments node) :
    node.lexemes = "(" :: (callee.lexemes ++ (Node.lexemesAll arguments ++ [")"])) := by
  cases shape with
  | intro is gathered wraps =>
    rw [is.lexemes]
    simp [NodeKind.opening, NodeKind.closing, gathered.lexemes rfl, wraps.lexemes rfl]

theorem CallOf.unlined (shape : CallOf callee arguments node) (wellTyped : node.WellTyped) :
    node.unlined = Grammar.call callee.unlined (arguments.map Node.unlined) 0 0 := by
  cases shape with
  | @intro list items is gathered wraps =>
    have keeps := (Node.wellTyped_iff.mp wellTyped).1
    simp only [Node.KeepsRule, is.kind_eq] at keeps
    have listed : list.WellTyped := is.wellTyped wellTyped list (by simp)
    rw [is.unlined, keeps, List.map_cons, List.map_cons, gathered.unlined rfl listed,
      wraps.unlined rfl (gathered.wellTyped listed)]
    rfl

end

theorem derivable_expression (around : node.Is .expression [] [inner]) (wellTyped : node.WellTyped)
    {tokens : List Token} (spells : Spells tokens inner.lexemes)
    (derives : Grammar.Expression tokens (.expression inner.unlined)) :
    Derivable Grammar.Expression node := by
  refine ⟨tokens, ?_, ?_⟩
  · rwa [around.lexemes_silent rfl]
  · rwa [around.unlined_expression wellTyped]

theorem derivable_literal {token : Token} (around : node.Is .expression [] [inner])
    (wellTyped : node.WellTyped) (spelled : token.IsSpelled) (lexemes : inner.lexemes = [token.lexeme])
    (derives : Grammar.Expression [token] (.expression inner.unlined)) :
    Derivable Grammar.Expression node :=
  derivable_expression around wellTyped (lexemes ▸ .cons spelled .nil) derives

theorem derivable_operation {operator : Operator} {operands children : List Node}
    (is : inner.Is (.operator operator) [] children) (inside : inner.WellTyped)
    (grouped : Operands operator operands children) (takes : operator.Takes operands.length)
    (derivable : ∀ operand ∈ operands, Derivable Grammar.Expression operand) :
    ∃ tokens, Spells tokens inner.lexemes ∧ Grammar.Expression tokens (.expression inner.unlined) := by
  have keeps := (Node.wellTyped_iff.mp inside).1
  simp only [Node.KeepsRule, is.kind_eq] at keeps
  obtain ⟨tokens, spells, many⟩ := many_of_derivable derivable
  have unlined : inner.unlined = Grammar.operation operator (operands.map Node.unlined) 0 := by
    rw [is.unlined, keeps.1, grouped.unlined (is.wellTyped inside)]
    rfl
  refine ⟨⟨.leftParen, "(", 0⟩ :: ⟨.operator operator, operator.symbol, 0⟩ ::
    (tokens ++ [⟨.rightParen, ")", 0⟩]), ?_, ?_⟩
  · rw [is.lexemes, grouped.lexemes]
    exact spells_form (spelled_operator operator) spells
  · rw [unlined]
    exact .operation parens_unlined rfl many (by rwa [List.length_map])

theorem derivable_conditional {test consequent alternative first second third : Node}
    (is : inner.Is .conditional [] [test, consequent, alternative]) (inside : inner.WellTyped)
    (tests : test.Is .test [] [first]) (consequents : consequent.Is .consequent [] [second])
    (alternatives : alternative.Is .alternative [] [third])
    (derivable : Derivable Grammar.Expression first)
    (derivable' : Derivable Grammar.Expression second)
    (derivable'' : Derivable Grammar.Expression third) :
    ∃ tokens, Spells tokens inner.lexemes ∧ Grammar.Expression tokens (.expression inner.unlined) := by
  have below := is.wellTyped inside
  obtain ⟨tokens, spells, derives⟩ := derivable
  obtain ⟨tokens', spells', derives'⟩ := derivable'
  obtain ⟨tokens'', spells'', derives''⟩ := derivable''
  have lexemes : inner.lexemes =
      "(" :: "if" :: (first.lexemes ++ (second.lexemes ++ (third.lexemes ++ [")"]))) := by
    rw [is.lexemes]
    simp [NodeKind.opening, NodeKind.closing, tests.lexemes_silent rfl,
      consequents.lexemes_silent rfl, alternatives.lexemes_silent rfl]
  have unlined : inner.unlined = Grammar.conditional first.unlined second.unlined third.unlined 0 := by
    rw [is.unlined_scaffold rfl inside]
    simp [Grammar.conditional, Node.untyped, tests.unlined_test (below test (by simp)),
      consequents.unlined_wrap rfl (below consequent (by simp)),
      alternatives.unlined_wrap rfl (below alternative (by simp))]
  refine ⟨⟨.leftParen, "(", 0⟩ :: ⟨.conditional, "if", 0⟩ ::
    (tokens ++ (tokens' ++ (tokens'' ++ [⟨.rightParen, ")", 0⟩]))), ?_, ?_⟩
  · rw [lexemes]
    exact .cons spelled_opening (.cons spelled_conditional
      (spells.append (spells'.append (spells''.append (.cons spelled_closing .nil)))))
  · rw [unlined]
    exact .conditional parens_unlined rfl derives derives' derives''

theorem derivable_namedCall {callee : Node} {arguments : List Node}
    (call : CallOf callee arguments inner) (inside : inner.WellTyped) (named : Named .calleeName callee)
    (derivable : ∀ argument ∈ arguments, Derivable Grammar.Expression argument) :
    ∃ tokens, Spells tokens inner.lexemes ∧ Grammar.Expression tokens (.expression inner.unlined) := by
  obtain ⟨name, spelled, lexemes, unlined⟩ := named.spelled rfl rfl (call.wellTyped inside).1
  obtain ⟨tokens, spells, many⟩ := many_of_derivable derivable
  refine ⟨⟨.leftParen, "(", 0⟩ :: ⟨.identifier, name, 0⟩ :: (tokens ++ [⟨.rightParen, ")", 0⟩]), ?_, ?_⟩
  · rw [call.lexemes, lexemes]
    exact spells_form spelled spells
  · rw [call.unlined inside, unlined]
    exact .namedCall parens_unlined rfl many

theorem derivable_functionCall {callee : Node} {arguments : List Node}
    (call : CallOf callee arguments inner) (inside : inner.WellTyped)
    (function : Derivable (Function Grammar.Expression) callee)
    (derivable : ∀ argument ∈ arguments, Derivable Grammar.Expression argument) :
    ∃ tokens, Spells tokens inner.lexemes ∧ Grammar.Expression tokens (.expression inner.unlined) := by
  obtain ⟨tokens, spells, form⟩ := function
  obtain ⟨tokens', spells', many⟩ := many_of_derivable derivable
  refine ⟨⟨.leftParen, "(", 0⟩ :: (tokens ++ (tokens' ++ [⟨.rightParen, ")", 0⟩])), ?_, ?_⟩
  · rw [call.lexemes]
    exact .cons spelled_opening (spells.append (spells'.append (.cons spelled_closing .nil)))
  · rw [call.unlined inside]
    exact .functionCall parens_unlined form many

-- Induction on the shape; what is well typed below a node is found on the way down to each part.
theorem Expression.derivable (shape : Expression node) (wellTyped : node.WellTyped) :
    Derivable Grammar.Expression node := by
  have inside {node inner : Node} (around : node.Is .expression [] [inner])
      (wellTyped : node.WellTyped) : inner.WellTyped :=
    around.wellTyped wellTyped inner (List.mem_singleton_self _)
  induction shape with
  -- A literal has the type that its rule fixes, so without lines it is the literal of its token.
  | @number node inner value around is low high =>
    have keeps := (Node.wellTyped_iff.mp (inside around wellTyped)).1
    simp only [Node.KeepsRule, is.kind_eq] at keeps
    have unlined : inner.unlined = .number value 0 := by
      rw [is.unlined, keeps]
      rfl
    exact derivable_literal around wellTyped (spelled_number low high) is.lexemes
      (unlined ▸ .number rfl)
  | @boolean node inner value around is =>
    have keeps := (Node.wellTyped_iff.mp (inside around wellTyped)).1
    simp only [Node.KeepsRule, is.kind_eq] at keeps
    have unlined : inner.unlined = .boolean value 0 := by
      rw [is.unlined, keeps]
      rfl
    exact derivable_literal around wellTyped (spelled_boolean value) is.lexemes
      (unlined ▸ .boolean rfl)
  | identifier named =>
    cases named with
    | intro around shape =>
      obtain ⟨name, spelled, lexemes, unlined⟩ := shape.spelled (inside around wellTyped)
      exact derivable_literal around wellTyped spelled lexemes (unlined ▸ .identifier rfl)
  | operation around is grouped takes _ ih =>
    have below := grouped.wellTyped (is.wellTyped (inside around wellTyped))
    obtain ⟨tokens, spells, derives⟩ :=
      derivable_operation is (inside around wellTyped) grouped takes fun operand member =>
        ih operand member (below operand member)
    exact derivable_expression around wellTyped spells derives
  | @conditional node inner test consequent alternative first second third around is tests consequents
      alternatives _ _ _ ihFirst ihSecond ihThird =>
    have below := is.wellTyped (inside around wellTyped)
    have part {kind : NodeKind} {child part : Node} (is : child.Is kind [] [part])
        (member : child ∈ [test, consequent, alternative]) : part.WellTyped :=
      is.wellTyped (below child member) part (List.mem_singleton_self _)
    obtain ⟨tokens, spells, derives⟩ :=
      derivable_conditional is (inside around wellTyped) tests consequents alternatives
        (ihFirst (part tests (by simp))) (ihSecond (part consequents (by simp)))
        (ihThird (part alternatives (by simp)))
    exact derivable_expression around wellTyped spells derives
  | function around function _ ih =>
    have typed := inside around wellTyped
    obtain ⟨tokens, spells, form⟩ := function.derivable typed (ih (function.wellTyped typed))
    exact derivable_expression around wellTyped spells (.function form)
  | namedCall around call named _ ih =>
    have typed := inside around wellTyped
    obtain ⟨tokens, spells, derives⟩ := derivable_namedCall call typed named fun argument member =>
      ih argument member ((call.wellTyped typed).2 argument member)
    exact derivable_expression around wellTyped spells derives
  -- The callee is a form of its own, written where a name would be.
  | functionCall around call function _ _ ihBody ih =>
    have typed := inside around wellTyped
    obtain ⟨called, below⟩ := call.wellTyped typed
    obtain ⟨tokens, spells, derives⟩ :=
      derivable_functionCall call typed (function.derivable called (ihBody (function.wellTyped called)))
        fun argument member => ih argument member (below argument member)
    exact derivable_expression around wellTyped spells derives

/-! ## Statements -/

theorem Printed.wellTyped {printed : Node} (shape : Printed printed node) (wellTyped : node.WellTyped) :
    printed.WellTyped := by
  cases shape with
  | number is | boolean is => exact is.wellTyped wellTyped printed (List.mem_singleton_self _)

theorem Statement.derivable (shape : Statement node) (wellTyped : node.WellTyped) :
    Derivable Grammar.Statement node := by
  -- The statement node itself writes nothing: the tokens are those of what it holds.
  have inside {inner : Node} (around : node.Is .statement [] [inner]) : inner.WellTyped :=
    around.wellTyped wellTyped inner (List.mem_singleton_self _)
  cases shape with
  | bare around shape =>
    obtain ⟨tokens, spells, derives⟩ := shape.derivable (inside around)
    refine ⟨tokens, ?_, ?_⟩
    · rwa [around.lexemes_silent rfl]
    · rw [around.unlined_wrap rfl wellTyped]
      exact .bare derives
  | @definition inner name value around is named shape =>
    have below := is.wellTyped (inside around)
    obtain ⟨tokens, spells, derives⟩ := shape.derivable (below value (by simp))
    obtain ⟨text, spelled, lexemes, unlined⟩ := named.spelled rfl rfl (below name (by simp))
    refine ⟨⟨.leftParen, "(", 0⟩ :: ⟨.define, "define", 0⟩ :: ⟨.identifier, text, 0⟩ ::
      (tokens ++ [⟨.rightParen, ")", 0⟩]), ?_, ?_⟩
    · rw [around.lexemes_silent rfl, is.lexemes, Node.lexemesAll_cons, lexemes,
        Node.lexemesAll_cons, Node.lexemesAll_nil, List.append_nil]
      exact .cons spelled_opening (.cons spelled_define (.cons spelled
        (spells.append (.cons spelled_closing .nil))))
    · have defined : inner.unlined = Grammar.definition ⟨.identifier, text, 0⟩ value.unlined 0 := by
        rw [is.unlined_scaffold rfl (inside around), List.map_cons, unlined]
        rfl
      rw [around.unlined_wrap rfl wellTyped, defined]
      exact .definition parens_unlined rfl rfl derives
  | @print inner printed around shape expression =>
    obtain ⟨tokens, spells, derives⟩ := expression.derivable (shape.wellTyped (inside around))
    cases shape with
    | @number keyword is same =>
      refine ⟨⟨.leftParen, "(", 0⟩ :: ⟨.printNum, keyword, 0⟩ :: (tokens ++ [⟨.rightParen, ")", 0⟩]),
        ?_, ?_⟩
      · rw [around.lexemes_silent rfl, is.lexemes, Node.lexemesAll_cons, Node.lexemesAll_nil,
          List.append_nil]
        exact spells_form (spelled_printNum same) spells
      · rw [around.unlined_wrap rfl wellTyped, is.unlined_scaffold rfl (inside around)]
        exact .printNum parens_unlined rfl derives
    | @boolean keyword is same =>
      refine ⟨⟨.leftParen, "(", 0⟩ :: ⟨.printBool, keyword, 0⟩ :: (tokens ++ [⟨.rightParen, ")", 0⟩]),
        ?_, ?_⟩
      · rw [around.lexemes_silent rfl, is.lexemes, Node.lexemesAll_cons, Node.lexemesAll_nil,
          List.append_nil]
        exact spells_form (spelled_printBool same) spells
      · rw [around.unlined_wrap rfl wellTyped, is.unlined_scaffold rfl (inside around)]
        exact .printBool parens_unlined rfl derives

theorem Program.derivable (shape : Program node) (wellTyped : node.WellTyped) :
    Derivable Grammar.Program node := by
  cases shape with
  | @intro list first rest is gathered shapes =>
    have listed : list.WellTyped := is.wellTyped wellTyped list (List.mem_singleton_self _)
    obtain ⟨tokens, spells, many⟩ := many_of_derivable fun statement member =>
      (shapes statement member).derivable (gathered.wellTyped listed statement member)
    refine ⟨tokens, ?_, _, many, ?_⟩
    · rwa [is.lexemes_silent rfl, gathered.lexemes rfl]
    · rw [is.unlined_wrap rfl wellTyped, gathered.unlined rfl listed, List.map_cons, Node.program?,
        line_unlined]

end

end Shape

end TypedLisp
