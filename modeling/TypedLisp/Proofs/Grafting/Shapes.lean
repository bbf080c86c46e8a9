import TypedLisp.Proofs.Grafting.Paths
import TypedLisp.Proofs.Node.Shapes

/-! Documented shapes with another expression at the end of a path.

An expression may stand wherever one stands, whatever surrounds it. Along a path each
node hands on to its child what its parent asks of it, so one lemma for each shape
says how it is put together again around another child.
-/

set_option autoImplicit false

namespace TypedLisp

/-- Wherever an expression stands in a tree it has the shape of one, and with any other expression in
its place the tree is as required. -/
def Node.Admits (Required : Node → Prop) (tree : Node) : Prop :=
  ∀ (path : List Nat) (node : Node), tree.descend? path = some node → node.kind = .expression →
    Shape.Expression node ∧ ∀ other, Shape.Expression other → Required (tree.graft path other)

namespace Node

section
variable {Required Other : Node → Prop} {node inner : Node} {kind : NodeKind} {leaves : List String}
  {children : List Node}

theorem Admits.mono (admits : Admits Required node) (weaken : ∀ node, Required node → Other node) :
    Admits Other node := by
  intro path found same kind
  obtain ⟨shape, grafted⟩ := admits path found same kind
  exact ⟨shape, fun other expression => weaken _ (grafted other expression)⟩

theorem Is.graft {index : Nat} {path : List Nat} {child other : Node} (is : node.Is kind leaves children)
    (listed : children[index]? = some child) :
    (node.graft (index :: path) other).Is kind leaves (children.set index (child.graft path other)) := by
  rw [← is.children_eq] at listed ⊢
  exact ⟨is.kind_eq, is.leaves_eq, children_graft_cons listed⟩

/-- A node is as required if it is so around each child that may come of one of its children. -/
theorem Is.admits (is : node.Is kind leaves children) (scaffold : kind ≠ .expression)
    (parts : ∀ index child, children[index]? = some child →
      Admits (fun changed => ∀ node : Node, node.Is kind leaves (children.set index changed) →
        Required node) child) : Admits Required node := by
  intro path found same expression
  cases path with
  | nil =>
    cases same
    exact absurd (is.kind_eq.symm.trans expression) scaffold
  | cons index path =>
    obtain ⟨child, listed, same⟩ := descend?_cons_eq_some_iff.mp same
    rw [is.children_eq] at listed
    obtain ⟨shape, grafted⟩ := parts index child listed path found same expression
    exact ⟨shape, fun other otherShape => grafted other otherShape _ (is.graft listed)⟩

theorem Is.admits_leaf (is : node.Is kind leaves []) (scaffold : kind ≠ .expression) :
    Admits Required node :=
  is.admits scaffold fun _ _ listed => by simp at listed

theorem only_child {index : Nat} {child : Node} (listed : [inner][index]? = some child) :
    index = 0 ∧ inner = child := by
  simpa [List.getElem?_singleton] using listed

theorem Is.admits_inner (is : node.Is kind leaves [inner]) (scaffold : kind ≠ .expression)
    (below : Admits (fun changed => ∀ node : Node, node.Is kind leaves [changed] → Required node) inner) :
    Admits Required node := by
  refine is.admits scaffold fun index child listed => ?_
  obtain ⟨rfl, rfl⟩ := only_child listed
  exact below

theorem Is.admits_expression (is : node.Is .expression [] [inner]) (shape : Shape.Expression node)
    (below : Admits (fun changed => ∀ node : Node, node.Is .expression [] [changed] →
      Shape.Expression node) inner) : Admits Shape.Expression node := by
  intro path found same expression
  cases path with
  | nil =>
    cases same
    exact ⟨shape, fun _ other => other⟩
  | cons index path =>
    obtain ⟨child, listed, same⟩ := descend?_cons_eq_some_iff.mp same
    rw [is.children_eq] at listed
    obtain ⟨rfl, rfl⟩ := only_child listed
    obtain ⟨found, grafted⟩ := below path found same expression
    exact ⟨found, fun other otherShape => grafted other otherShape _ (is.graft listed)⟩

end

end Node

namespace Shape

open Node (Admits)

variable {Required : Node → Prop}

/-! ## Lists -/

theorem Gathered.admits {kind : NodeKind} {items : List Node} {list : Node}
    (gathered : Gathered kind items list) (scaffold : kind ≠ .expression)
    (parts : ∀ index item, items[index]? = some item →
      Admits (fun changed => ∀ list : Node, Gathered kind (items.set index changed) list →
        Required list) item) : Admits Required list := by
  cases gathered with
  | none is => exact is.admits_leaf scaffold
  | one => exact (parts 0 list rfl).mono fun changed required => required changed .one
  | @more first second _ rest is =>
    refine is.admits scaffold fun index item listed => (parts index item listed).mono ?_
    intro changed required list isList
    -- A list of two or more stays one, whichever of its members is changed.
    match index with
    | 0 | 1 | _ + 2 => exact required list (.more isList)

theorem Tail.admits {items : List Node} {tail : Node} (grouped : Tail items tail)
    (parts : ∀ index item, items[index]? = some item →
      Admits (fun changed => ∀ tail : Node, Tail (items.set index changed) tail → Required tail) item) :
    Admits Required tail := by
  cases grouped with
  | one => exact (parts 0 tail rfl).mono fun changed required => required changed .one
  | @more first second _ rest is =>
    refine is.admits (by decide) fun index item listed => (parts index item listed).mono ?_
    intro changed required tail isTail
    match index with
    | 0 | 1 | _ + 2 => exact required tail (.more isTail)

theorem Wrapped.getElem? {kind : NodeKind} {inners nodes : List Node} (wrapped : Wrapped kind inners nodes)
    {index : Nat} {node : Node} (listed : nodes[index]? = some node) :
    ∃ inner, inners[index]? = some inner ∧ node.Is kind [] [inner] ∧
      ∀ changed around : Node, around.Is kind [] [changed] →
        Wrapped kind (inners.set index changed) (nodes.set index around) := by
  induction wrapped generalizing index with
  | nil => cases listed
  | @cons inner first inners nodes is later ih =>
    cases index with
    | zero =>
      cases listed
      exact ⟨inner, rfl, is, fun changed around isAround => .cons isAround later⟩
    | succ index =>
      obtain ⟨found, same, isFound, rest⟩ := ih listed
      exact ⟨found, same, isFound, fun changed around isAround => .cons is (rest changed around isAround)⟩

/-! ## Forms -/

theorem Named.admits {kind : NodeKind} {node : Node} (named : Named kind node)
    (scaffold : kind ≠ .expression) : Admits Required node := by
  cases named with
  | intro is identifier =>
    cases identifier with
    | intro isInner => exact is.admits_inner scaffold (isInner.admits_leaf (by decide))

theorem Operands.admits {operator : Operator} {operands children : List Node} {node : Node}
    (is : node.Is (.operator operator) [] children) (grouped : Operands operator operands children)
    (parts : ∀ index operand, operands[index]? = some operand →
      Admits (fun changed => ∀ (node : Node) (children : List Node),
        node.Is (.operator operator) [] children →
        Operands operator (operands.set index changed) children → Required node) operand) :
    Admits Required node := by
  refine is.admits (by simp) fun index child listed => ?_
  cases grouped with
  | fixed notVariadic =>
    exact (parts index child listed).mono fun changed required node is =>
      required node _ is (.fixed notVariadic)
  | variadic variadic grouped =>
    match index with
    | 0 =>
      cases listed
      exact (parts 0 _ rfl).mono fun changed required node is =>
        required node _ is (.variadic variadic grouped)
    | 1 =>
      cases listed
      refine grouped.admits fun index operand listed => (parts (index + 1) operand listed).mono ?_
      exact fun changed required tail grouped node is => required node _ is (.variadic variadic grouped)

theorem FunctionOf.admits {body node : Node} (form : FunctionOf body node)
    (below : Admits (fun changed => ∀ node : Node, FunctionOf changed node → Required node) body) :
    Admits Required node := by
  cases form with
  | intro is gathered parameters isBody =>
    refine is.admits (by decide) fun index child listed => ?_
    match index with
    | 0 =>
      cases listed
      exact gathered.admits (by decide) fun index item listed =>
        (parameters item (List.mem_of_getElem? listed)).admits (by decide)
    | 1 =>
      cases listed
      refine isBody.admits_inner (by decide) (below.mono ?_)
      exact fun changed required around isBody node is =>
        required node (.intro is gathered parameters isBody)

theorem CallOf.admits {callee node : Node} {arguments : List Node} (form : CallOf callee arguments node)
    (called : Admits (fun changed => ∀ node : Node, CallOf changed arguments node → Required node) callee)
    (parts : ∀ index argument, arguments[index]? = some argument →
      Admits (fun changed => ∀ node : Node, CallOf callee (arguments.set index changed) node →
        Required node) argument) : Admits Required node := by
  cases form with
  | intro is gathered wrapped =>
    refine is.admits (by decide) fun index child listed => ?_
    match index with
    | 0 =>
      cases listed
      exact called.mono fun changed required node is => required node (.intro is gathered wrapped)
    | 1 =>
      cases listed
      refine gathered.admits (by decide) fun index item listed => ?_
      obtain ⟨argument, found, isItem, rest⟩ := wrapped.getElem? listed
      refine isItem.admits_inner (by decide) ((parts index argument found).mono ?_)
      exact fun changed required around isAround list gathered node is =>
        required node (.intro is gathered (rest changed around isAround))

-- Induction on the shape. Every form admits an expression in the place of each of its own, and what an
-- expression in such a place admits is carried up to the form by `mono`.
theorem Expression.admits {node : Node} (shape : Expression node) : Admits Expression node := by
  induction shape with
  | number is isInner low high =>
    exact is.admits_expression (.number is isInner low high) (isInner.admits_leaf (by decide))
  | boolean is isInner =>
    exact is.admits_expression (.boolean is isInner) (isInner.admits_leaf (by decide))
  | identifier named =>
    cases named with
    | intro is identifier =>
      cases identifier with
      | intro isInner word free =>
        exact is.admits_expression (.identifier (.intro is (.intro isInner word free)))
          (isInner.admits_leaf (by decide))
  | @operation node inner operator operands children is isInner grouped takes expressions ih =>
    refine is.admits_expression (.operation is isInner grouped takes expressions) ?_
    refine Operands.admits isInner grouped fun index operand listed => ?_
    refine (ih operand (List.mem_of_getElem? listed)).mono ?_
    intro changed expression inner children isInner grouped node is
    have takes : operator.Takes (operands.set index changed).length := by rwa [List.length_set]
    exact .operation is isInner grouped takes (Node.forall_mem_set index expressions expression)
  | @conditional node inner test consequent alternative first second third is isInner isTest isConsequent
      isAlternative one two three ihOne ihTwo ihThree =>
    refine is.admits_expression
      (.conditional is isInner isTest isConsequent isAlternative one two three) ?_
    refine isInner.admits (by decide) fun index child listed => ?_
    match index with
    | 0 =>
      cases listed
      refine isTest.admits_inner (by decide) (ihOne.mono ?_)
      exact fun changed one test isTest inner isInner node is =>
        .conditional is isInner isTest isConsequent isAlternative one two three
    | 1 =>
      cases listed
      refine isConsequent.admits_inner (by decide) (ihTwo.mono ?_)
      exact fun changed two consequent isConsequent inner isInner node is =>
        .conditional is isInner isTest isConsequent isAlternative one two three
    | 2 =>
      cases listed
      refine isAlternative.admits_inner (by decide) (ihThree.mono ?_)
      exact fun changed three alternative isAlternative inner isInner node is =>
        .conditional is isInner isTest isConsequent isAlternative one two three
  | function is form body ih =>
    refine is.admits_expression (.function is form body) (form.admits (ih.mono ?_))
    exact fun changed body inner form node is => .function is form body
  | namedCall is form named expressions ih =>
    refine is.admits_expression (.namedCall is form named expressions) ?_
    refine form.admits (named.admits (by decide)) fun index argument listed => ?_
    refine (ih argument (List.mem_of_getElem? listed)).mono ?_
    exact fun changed expression inner form node is =>
      .namedCall is form named (Node.forall_mem_set index expressions expression)
  | functionCall is form callee body expressions ihBody ih =>
    refine is.admits_expression (.functionCall is form callee body expressions) ?_
    refine form.admits (callee.admits (ihBody.mono ?_)) fun index argument listed => ?_
    · exact fun changed body callee form' inner form node is =>
        .functionCall is form form' body expressions
    · refine (ih argument (List.mem_of_getElem? listed)).mono ?_
      exact fun changed expression inner form node is =>
        .functionCall is form callee body (Node.forall_mem_set index expressions expression)

/-! ## Statements -/

-- A defined name is no expression, so only the value of a definition may be replaced.
theorem Statement.admits {node : Node} (shape : Statement node) : Admits Statement node := by
  cases shape with
  | bare is expression =>
    exact is.admits_inner (by decide) (expression.admits.mono fun changed expression node is =>
      .bare is expression)
  | definition is isInner named value =>
    refine is.admits_inner (by decide) (isInner.admits (by decide) fun index child listed => ?_)
    match index with
    | 0 =>
      cases listed
      exact named.admits (by decide)
    | 1 =>
      cases listed
      exact value.admits.mono fun changed value inner isInner node is =>
        .definition is isInner named value
  | print is printed expression =>
    refine is.admits_inner (by decide) ?_
    cases printed with
    | number isInner keyword =>
      refine isInner.admits_inner (by decide) (expression.admits.mono ?_)
      exact fun changed expression inner isInner node is =>
        .print is (.number isInner keyword) expression
    | boolean isInner keyword =>
      refine isInner.admits_inner (by decide) (expression.admits.mono ?_)
      exact fun changed expression inner isInner node is =>
        .print is (.boolean isInner keyword) expression

theorem Program.admits {tree : Node} (shape : Program tree) : Admits Program tree := by
  cases shape with
  | intro is gathered statements =>
    refine is.admits_inner (by decide) (gathered.admits (by decide) fun index statement listed => ?_)
    refine (statements statement (List.mem_of_getElem? listed)).admits.mono ?_
    intro changed statement list gathered node is
    have statements := Node.forall_mem_set index statements statement
    cases index with
    | zero => exact .intro is gathered statements
    | succ index => exact .intro is gathered statements

end Shape

end TypedLisp
