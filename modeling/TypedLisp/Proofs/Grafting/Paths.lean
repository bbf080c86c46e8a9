import TypedLisp.Proofs.Typing.Nesting
import TypedLisp.Proofs.Writing.Lexemes

/-! Trees with another node at the end of a path.

The nodes on the path keep their kinds and leaves, and all beside it stays. So the
lexemes before the node and after it stay, and the tree nests no deeper than it did
if the new node nests no deeper than the old one.
-/

set_option autoImplicit false

namespace TypedLisp.Node

/-- The same tree with another node where a path leads to. A list that the node is a direct member
of has the type that its members share then; no other type is changed. -/
def graft : (tree : Node) → (path : List Nat) → (other : Node) → Node
  | _, [], other => other
  | tree, index :: path, other =>
      let children := tree.children.modify index (·.graft path other)
      let valueType :=
        if tree.kind = .expressionList ∧ path = [] then (sharedType (children.map operand)).toOption
        else tree.valueType
      { tree with valueType, children }

/-- The lexemes of a tree that are written before the node where a path leads to. -/
def lexemesBefore : (tree : Node) → (path : List Nat) → List String
  | _, [] => []
  | tree, index :: path =>
      tree.kind.opening tree.leaves ++ (lexemesAll (tree.children.take index) ++
        (tree.children[index]?.map (·.lexemesBefore path)).getD [])

section
variable (tree other : Node) (index : Nat) (path : List Nat)

@[simp] theorem graft_nil : tree.graft [] other = other := rfl

@[simp] theorem kind_graft_cons : (tree.graft (index :: path) other).kind = tree.kind := rfl

@[simp] theorem leaves_graft_cons : (tree.graft (index :: path) other).leaves = tree.leaves := rfl

end

section
variable {tree node other : Node} {index : Nat} {path : List Nat}

theorem descend?_cons_eq_some_iff :
    tree.descend? (index :: path) = some node ↔
      ∃ child, tree.children[index]? = some child ∧ child.descend? path = some node :=
  Option.bind_eq_some_iff

theorem children_graft_cons {child : Node} (listed : tree.children[index]? = some child) :
    (tree.graft (index :: path) other).children = tree.children.set index (child.graft path other) := by
  obtain ⟨bound, rfl⟩ := List.getElem?_eq_some_iff.mp listed
  have modified : (tree.graft (index :: path) other).children =
      tree.children.modify index (·.graft path other) := rfl
  rw [modified, List.modify_eq_take_cons_drop bound, List.set_eq_take_append_cons_drop, if_pos bound]

theorem graft_cons_of_ne {child : Node} (listed : tree.children[index]? = some child)
    (outside : ¬ (tree.kind = .expressionList ∧ path = [])) :
    tree.graft (index :: path) other =
      { tree with children := tree.children.set index (child.graft path other) } := by
  rw [← children_graft_cons listed, graft]
  simp only [if_neg outside]

theorem graft_member {member : Node} (listed : tree.children[index]? = some member)
    (list : tree.kind = .expressionList) :
    tree.graft [index] other =
      { tree with
        valueType := (sharedType ((tree.children.set index other).map operand)).toOption
        children := tree.children.set index other } := by
  have children : (tree.graft [index] other).children = tree.children.set index other :=
    children_graft_cons listed
  rw [← children, graft]
  simp only [list, and_self, if_true]

theorem split_children {children : List Node} {child : Node} (listed : children[index]? = some child) :
    children = children.take index ++ child :: children.drop (index + 1) := by
  obtain ⟨bound, rfl⟩ := List.getElem?_eq_some_iff.mp listed
  rw [← List.drop_eq_getElem_cons bound, List.take_append_drop]

theorem set_children {children : List Node} {child : Node} (listed : children[index]? = some child)
    (changed : Node) :
    children.set index changed = children.take index ++ changed :: children.drop (index + 1) := by
  obtain ⟨bound, rfl⟩ := List.getElem?_eq_some_iff.mp listed
  rw [List.set_eq_take_append_cons_drop, if_pos bound]

theorem forall_mem_set {P : Node → Prop} {children : List Node} (index : Nat)
    (others : ∀ child ∈ children, P child) (changed : P other) :
    ∀ child ∈ children.set index other, P child := by
  intro child member
  rcases List.mem_or_eq_of_mem_set member with member | rfl
  · exact others child member
  · exact changed

/-! ## Lexemes -/

theorem lexemesAll_append (first second : List Node) :
    lexemesAll (first ++ second) = lexemesAll first ++ lexemesAll second := by
  induction first with
  | nil => rfl
  | cons node first ih => rw [List.cons_append, lexemesAll_cons, ih, lexemesAll_cons, List.append_assoc]

-- What is written after a node does not depend on that node, so it is the same for every other.
theorem lexemes_graft (found : tree.descend? path = some node) :
    ∃ after, tree.lexemes = tree.lexemesBefore path ++ (node.lexemes ++ after) ∧
      ∀ other, (tree.graft path other).lexemes =
        tree.lexemesBefore path ++ (other.lexemes ++ after) := by
  induction path generalizing tree with
  | nil =>
    cases found
    exact ⟨[], by simp [lexemesBefore], fun other => by simp [lexemesBefore]⟩
  | cons index path ih =>
    obtain ⟨child, listed, found⟩ := descend?_cons_eq_some_iff.mp found
    obtain ⟨after, own, grafted⟩ := ih found
    have before : tree.lexemesBefore (index :: path) =
        tree.kind.opening tree.leaves ++
          (lexemesAll (tree.children.take index) ++ child.lexemesBefore path) := by
      rw [lexemesBefore, listed]
      rfl
    refine ⟨after ++ (lexemesAll (tree.children.drop (index + 1)) ++ tree.kind.closing), ?_, ?_⟩
    · have children := congrArg lexemesAll (split_children listed)
      rw [lexemes_eq, before, children, lexemesAll_append, lexemesAll_cons, own]
      simp only [List.append_assoc]
    · intro other
      rw [lexemes_eq, before, children_graft_cons listed, set_children listed, lexemesAll_append,
        lexemesAll_cons, grafted]
      simp only [kind_graft_cons, leaves_graft_cons, List.append_assoc]

/-! ## Nesting -/

theorem nestingFrom_graft_le (found : tree.descend? path = some node)
    (shallow : ∀ called, other.nestingFrom called ≤ node.nestingFrom called) (called : Bool) :
    (tree.graft path other).nestingFrom called ≤ tree.nestingFrom called := by
  induction path generalizing tree called with
  | nil =>
    cases found
    exact shallow called
  | cons index path ih =>
    obtain ⟨child, listed, found⟩ := descend?_cons_eq_some_iff.mp found
    rw [nestingFrom_eq, nestingFrom_eq tree, kind_graft_cons]
    have below := nestingAll_le_iff.mp (Nat.le_refl (nestingAll tree.kind.isCall tree.children))
    refine Nat.add_le_add_right (nestingAll_le_iff.mpr ?_) _
    rw [children_graft_cons listed]
    refine forall_mem_set index below ?_
    exact Nat.le_trans (ih found tree.kind.isCall) (below child (List.mem_of_getElem? listed))

end

end TypedLisp.Node
