import TypedLisp.Proofs.Lexing.Continuation
import TypedLisp.Proofs.Lexing.Spacing
import TypedLisp.Proofs.Node.Positions
import TypedLisp.Proofs.Node.Shapes

/-! The leaves of documented shapes are lexemes.

Literals, names and print keywords are written as tokens are, and the leaf of an
empty list is a word. So no leaf holds a blank.
-/

set_option autoImplicit false

namespace TypedLisp

/-- Every leaf in a tree is a lexeme. -/
def Node.LexemeLeaves (tree : Node) : Prop :=
  ∀ node ∈ tree.nodes, ∀ leaf ∈ node.leaves, IsLexeme leaf.toList

theorem Node.LexemeLeaves.not_blank {tree node : Node} (leaves : tree.LexemeLeaves)
    (member : node ∈ tree.nodes) :
    ∀ leaf ∈ node.leaves, ∀ character ∈ leaf.toList, isBlank character = false :=
  fun leaf listed => (leaves node member leaf listed).not_blank

theorem Node.Is.lexemeLeaves {node : Node} {kind : NodeKind} {leaves : List String}
    {children : List Node} (is : node.Is kind leaves children)
    (own : ∀ leaf ∈ leaves, IsLexeme leaf.toList) (below : ∀ child ∈ children, child.LexemeLeaves) :
    node.LexemeLeaves := by
  intro found member
  rcases Node.mem_nodes.mp member with rfl | ⟨child, listed, member⟩
  · rwa [is.leaves_eq]
  · exact below child (is.children_eq ▸ listed) found member

theorem Node.Is.lexemeLeaves_bare {node : Node} {kind : NodeKind} {children : List Node}
    (is : node.Is kind [] children) (below : ∀ child ∈ children, child.LexemeLeaves) :
    node.LexemeLeaves :=
  is.lexemeLeaves (List.forall_mem_nil _) below

theorem Node.Is.lexemeLeaves_single {node : Node} {kind : NodeKind} {leaf : String}
    (is : node.Is kind [leaf] []) (lexeme : IsLexeme leaf.toList) : node.LexemeLeaves :=
  is.lexemeLeaves (List.forall_mem_singleton.mpr lexeme) (List.forall_mem_nil _)

namespace Shape

section
variable {kind : NodeKind} {items : List Node} {node : Node}

-- What stands for an empty list is in no text, but it is a word as names are.
theorem isLexeme_nil : IsLexeme "nil".toList := by
  have letters : ∀ character ∈ ['i', 'l'], character.isAlphanum ∨ character = '-' :=
    List.forall_mem_cons.mpr ⟨.inl rfl, List.forall_mem_singleton.mpr (.inl rfl)⟩
  exact .word (.intro (by decide) letters : Word ['n', 'i', 'l'])

theorem Gathered.lexemeLeaves (gathered : Gathered kind items node)
    (parts : ∀ item ∈ items, item.LexemeLeaves) : node.LexemeLeaves := by
  cases gathered with
  | none is => exact is.lexemeLeaves_single isLexeme_nil
  | one => exact parts node (List.mem_singleton_self node)
  | more is => exact is.lexemeLeaves_bare parts

theorem Tail.lexemeLeaves (tail : Tail items node) (parts : ∀ item ∈ items, item.LexemeLeaves) :
    node.LexemeLeaves := by
  cases tail with
  | one => exact parts node (List.mem_singleton_self node)
  | more is => exact is.lexemeLeaves_bare parts

theorem Operands.lexemeLeaves {operator : Operator} {children : List Node}
    (grouped : Operands operator items children) (parts : ∀ item ∈ items, item.LexemeLeaves) :
    ∀ child ∈ children, child.LexemeLeaves := by
  cases grouped with
  | fixed => exact parts
  | variadic _ tail =>
    obtain ⟨first, later⟩ := List.forall_mem_cons.mp parts
    exact List.forall_mem_cons.mpr ⟨first, List.forall_mem_singleton.mpr (tail.lexemeLeaves later)⟩

theorem Wrapped.lexemeLeaves {nodes : List Node} (wrapped : Wrapped kind items nodes)
    (parts : ∀ item ∈ items, item.LexemeLeaves) : ∀ node ∈ nodes, node.LexemeLeaves := by
  induction wrapped with
  | nil => exact List.forall_mem_nil _
  | cons is _ ih =>
    obtain ⟨first, later⟩ := List.forall_mem_cons.mp parts
    exact List.forall_mem_cons.mpr
      ⟨is.lexemeLeaves_bare (List.forall_mem_singleton.mpr first), ih later⟩

theorem Named.lexemeLeaves (named : Named kind node) : node.LexemeLeaves := by
  cases named with
  | intro is identifier =>
    cases identifier with
    | intro isInner word =>
      exact is.lexemeLeaves_bare (List.forall_mem_singleton.mpr (isInner.lexemeLeaves_single (.word word)))

theorem FunctionOf.lexemeLeaves {body : Node} (form : FunctionOf body node)
    (below : body.LexemeLeaves) : node.LexemeLeaves := by
  cases form with
  | intro is gathered parameters isBody =>
    have list := gathered.lexemeLeaves fun parameter member => (parameters parameter member).lexemeLeaves
    have around := isBody.lexemeLeaves_bare (List.forall_mem_singleton.mpr below)
    exact is.lexemeLeaves_bare (List.forall_mem_cons.mpr ⟨list, List.forall_mem_singleton.mpr around⟩)

theorem CallOf.lexemeLeaves {callee : Node} (form : CallOf callee items node)
    (called : callee.LexemeLeaves) (parts : ∀ item ∈ items, item.LexemeLeaves) : node.LexemeLeaves := by
  cases form with
  | intro is gathered wrapped =>
    have list := gathered.lexemeLeaves (wrapped.lexemeLeaves parts)
    exact is.lexemeLeaves_bare (List.forall_mem_cons.mpr ⟨called, List.forall_mem_singleton.mpr list⟩)

end

theorem lexemeLeaves_around {kind : NodeKind} {node inner : Node} (is : node.Is kind [] [inner])
    (below : inner.LexemeLeaves) : node.LexemeLeaves :=
  is.lexemeLeaves_bare (List.forall_mem_singleton.mpr below)

theorem Expression.lexemeLeaves {node : Node} (shape : Expression node) : node.LexemeLeaves := by
  induction shape with
  | @number node inner value is isInner =>
    have lexeme : IsLexeme (String.ofList (Decimal.write value)).toList := by
      rw [String.toList_ofList]
      exact .numeral (numeral_write value)
    exact lexemeLeaves_around is (isInner.lexemeLeaves_single lexeme)
  | @boolean node inner value is isInner =>
    have lexeme : IsLexeme (if value then "#t" else "#f").toList := by
      cases value with
      | true => exact .trueLiteral
      | false => exact .falseLiteral
    exact lexemeLeaves_around is (isInner.lexemeLeaves_single lexeme)
  | identifier named => exact named.lexemeLeaves
  | operation is isInner grouped _ _ ih =>
    exact lexemeLeaves_around is (isInner.lexemeLeaves_bare (grouped.lexemeLeaves ih))
  | conditional is isInner isTest isConsequent isAlternative _ _ _ first second third =>
    refine lexemeLeaves_around is (isInner.lexemeLeaves_bare ?_)
    exact List.forall_mem_cons.mpr ⟨lexemeLeaves_around isTest first, List.forall_mem_cons.mpr
      ⟨lexemeLeaves_around isConsequent second,
        List.forall_mem_singleton.mpr (lexemeLeaves_around isAlternative third)⟩⟩
  | function is form _ ih => exact lexemeLeaves_around is (form.lexemeLeaves ih)
  | namedCall is form named _ ih =>
    exact lexemeLeaves_around is (form.lexemeLeaves named.lexemeLeaves ih)
  | functionCall is form callee _ _ ihBody ih =>
    exact lexemeLeaves_around is (form.lexemeLeaves (callee.lexemeLeaves ihBody) ih)

theorem Printed.lexemeLeaves {printed node : Node} (shape : Printed printed node)
    (below : printed.LexemeLeaves) : node.LexemeLeaves := by
  have below := List.forall_mem_singleton.mpr below
  cases shape with
  | number is same =>
    exact is.lexemeLeaves (List.forall_mem_singleton.mpr (spelled_printNum same).isLexeme) below
  | boolean is same =>
    exact is.lexemeLeaves (List.forall_mem_singleton.mpr (spelled_printBool same).isLexeme) below

theorem Statement.lexemeLeaves {node : Node} (shape : Statement node) : node.LexemeLeaves := by
  cases shape with
  | bare is expression => exact lexemeLeaves_around is expression.lexemeLeaves
  | definition is isInner named value =>
    refine lexemeLeaves_around is (isInner.lexemeLeaves_bare ?_)
    exact List.forall_mem_cons.mpr
      ⟨named.lexemeLeaves, List.forall_mem_singleton.mpr value.lexemeLeaves⟩
  | print is printed expression =>
    exact lexemeLeaves_around is (printed.lexemeLeaves expression.lexemeLeaves)

theorem Program.lexemeLeaves {tree : Node} (shape : Program tree) : tree.LexemeLeaves := by
  cases shape with
  | intro is gathered statements =>
    exact lexemeLeaves_around is
      (gathered.lexemeLeaves fun statement member => (statements statement member).lexemeLeaves)

end Shape

end TypedLisp
