import TypedLisp.Proofs.Grafting.Shapes
import TypedLisp.Proofs.Typing.Lines

/-! Types with an unconstrained expression at the end of a path.

An unconstrained operand fits every class, so a rule that is kept stays kept. Only a
list takes its type from expressions, and its new type is the old one or none in
particular; an operator finds that as fitting as before.
-/

set_option autoImplicit false

namespace TypedLisp

/-! ## Shared types -/

theorem Shares.loosen {operands others : List Operand} {shared : ValueType}
    (shares : Shares operands shared)
    (looser : ∀ other ∈ others, other.valueType = some .unconstrained ∨
      ∃ operand ∈ operands, other.valueType = operand.valueType) :
    ∃ loose, Shares others loose ∧ (loose = shared ∨ loose = .unconstrained) := by
  obtain ⟨expected, fitting⟩ := shares.fit
  have fits : ∀ other ∈ others, other.fits expected := by
    intro other member
    rcases looser other member with free | ⟨operand, listed, same⟩
    · exact Operand.fits_iff.mpr (.inl free)
    · rw [Operand.fits_iff, same, ← Operand.fits_iff]
      exact fitting operand listed
  have shares' := shares_typeWithin fits
  refine ⟨_, shares', ?_⟩
  rcases shares'.attained with free | ⟨other, member, typed⟩
  · exact .inr free
  · rcases looser other member with free | ⟨operand, listed, same⟩
    · exact .inr (Option.some.inj (typed.symm.trans free))
    · rw [same] at typed
      rcases shares.within operand listed with free | shared
      · exact .inr (Option.some.inj (typed.symm.trans free))
      · exact .inl (Option.some.inj (typed.symm.trans shared))

theorem Shares.congr {operands others : List Operand} {shared : ValueType}
    (shares : Shares operands shared)
    (same : others.map Operand.valueType = operands.map Operand.valueType) : Shares others shared := by
  have typed (valueType : Option ValueType) : (∃ other ∈ others, other.valueType = valueType) ↔
      ∃ operand ∈ operands, operand.valueType = valueType := by
    rw [← List.mem_map, ← List.mem_map, same]
  refine ⟨fun other member => ?_, shares.attained.imp_right (typed _).mpr⟩
  obtain ⟨operand, listed, same⟩ := (typed other.valueType).mp ⟨other, member, rfl⟩
  rw [← same]
  exact shares.within operand listed

namespace Node

/-! ## Layers -/

/-- Expressions hold neither expressions nor lists, and lists hold expressions. -/
structure Layered (tree : Node) : Prop where
  expressions : ∀ path node, tree.descend? path = some node → node.kind = .expression →
    ∀ child ∈ node.children, child.kind ≠ .expression ∧ child.kind ≠ .expressionList
  lists : ∀ path node, tree.descend? path = some node → node.kind = .expressionList →
    ∀ child ∈ node.children, child.kind = .expression

section
variable {tree child node other : Node} {index : Nat} {path : List Nat}

theorem Layered.below (layered : tree.Layered) (listed : tree.children[index]? = some child) :
    child.Layered := by
  have through {path : List Nat} {node : Node} (found : child.descend? path = some node) :
      tree.descend? (index :: path) = some node := descend?_cons_eq_some_iff.mpr ⟨child, listed, found⟩
  exact ⟨fun path node found => layered.expressions _ node (through found),
    fun path node found => layered.lists _ node (through found)⟩

theorem mem_postorder_of_descend? (found : tree.descend? path = some node) : node ∈ tree.postorder := by
  induction path generalizing tree with
  | nil =>
    cases found
    exact mem_postorder.mpr (.inr rfl)
  | cons index path ih =>
    obtain ⟨child, listed, found⟩ := descend?_cons_eq_some_iff.mp found
    exact mem_postorder.mpr (.inl ⟨child, List.mem_of_getElem? listed, ih found⟩)

end

end Node

theorem Shape.Expression.layered {node : Node} (shape : Shape.Expression node) :
    ∀ child ∈ node.children, child.kind ≠ .expression ∧ child.kind ≠ .expressionList := by
  have single {inner : Node} {kind : NodeKind} (is : node.Is .expression [] [inner])
      (kind_eq : inner.kind = kind) (other : kind ≠ .expression ∧ kind ≠ .expressionList) :
      ∀ child ∈ node.children, child.kind ≠ .expression ∧ child.kind ≠ .expressionList := by
    rw [is.children_eq, List.forall_mem_singleton, kind_eq]
    exact other
  cases shape with
  | number is isInner | boolean is isInner | operation is isInner | conditional is isInner =>
    exact single is isInner.kind_eq (by simp)
  | identifier named =>
    obtain ⟨is, ⟨isInner, -, -⟩⟩ := named
    exact single is isInner.kind_eq (by simp)
  | function is form =>
    obtain ⟨isInner, -, -, -⟩ := form
    exact single is isInner.kind_eq (by simp)
  | namedCall is form | functionCall is form =>
    obtain ⟨isInner, -, -⟩ := form
    exact single is isInner.kind_eq (by simp)

theorem Grammar.Covers.kind_of_listed {tokens : List Token} {tree list : Node} (covers : Covers tokens tree)
    (member : list ∈ tree.postorder) (kind : list.kind = .expressionList) :
    ∀ child ∈ list.children, child.kind = .expression := by
  obtain ⟨demand, line, demands⟩ := (covers list member).demands (by rw [kind]; rfl)
  cases demands with
  | operation | test => cases kind
  | list _ _ _ _ _ many _ => exact many.forall_mem Grammar.Expression.kind_eq

theorem layered_of_program {tokens : List Token} {tree : Node} (program : Grammar.Program tokens tree)
    (shape : Shape.Program tree) : tree.Layered where
  expressions path node found kind := (shape.admits path node found kind).1.layered
  lists _ _ found kind := program.covers.kind_of_listed (Node.mem_postorder_of_descend? found) kind

namespace Node

/-! ## Types along a path -/

section
variable {tree child node other : Node} {index : Nat} {path : List Nat}

def Loosens (loose node : Node) : Prop :=
  loose.valueType = node.valueType ∨ loose.valueType = some .unconstrained

theorem Loosens.fits {loose : Node} (loosens : loose.Loosens node) {expected : OperandClass}
    (fits : node.operand.fits expected) : loose.operand.fits expected := by
  rw [Operand.fits_iff] at fits ⊢
  rcases loosens with same | free
  · have same : loose.operand.valueType = node.operand.valueType := same
    rwa [same]
  · exact .inl free

theorem map_set_of_eq {children : List Node} {changed : Node} (listed : children[index]? = some child)
    (same : changed.valueType = child.valueType) :
    (children.set index changed).map (·.valueType) = children.map (·.valueType) := by
  rw [set_children listed, List.map_append, List.map_cons, same]
  conv_rhs => rw [split_children listed, List.map_append, List.map_cons]

/-- A rule is kept with a child that loosens one of the children. Expressions and lists, which take
their types from their children, need one of the same type. -/
theorem KeepsRule.set_child {changed : Node} (keeps : tree.KeepsRule)
    (listed : tree.children[index]? = some child) (loosens : changed.Loosens child)
    (same : tree.kind = .expression ∨ tree.kind = .expressionList →
      changed.valueType = child.valueType) :
    KeepsRule { tree with children := tree.children.set index changed } := by
  have fits {expected : OperandClass} (fitting : ∀ child ∈ tree.children, child.operand.fits expected) :
      ∀ child ∈ tree.children.set index changed, child.operand.fits expected :=
    forall_mem_set index fitting (loosens.fits (fitting child (List.mem_of_getElem? listed)))
  unfold KeepsRule at keeps ⊢
  cases kind : tree.kind with
  | operator operator =>
    simp only [kind] at keeps ⊢
    exact ⟨keeps.1, fits keeps.2⟩
  | test =>
    simp only [kind] at keeps ⊢
    exact ⟨keeps.1, fits keeps.2⟩
  | expression =>
    simp only [kind] at keeps ⊢
    exact (map_set_of_eq listed (same (.inl kind))).trans keeps
  | expressionList =>
    simp only [kind] at keeps ⊢
    obtain ⟨shared, typed, shares⟩ := keeps
    refine ⟨shared, typed, shares.congr ?_⟩
    rw [List.map_map, List.map_map]
    exact map_set_of_eq listed (same (.inr kind))
  | _ => simpa only [kind] using keeps

theorem KeepsRule.set_member {changed : Node} (index : Nat) (keeps : tree.KeepsRule)
    (list : tree.kind = .expressionList)
    (free : changed.valueType = some .unconstrained) :
    ∃ loose, (sharedType ((tree.children.set index changed).map operand)).toOption = some loose ∧
      (some loose = tree.valueType ∨ loose = .unconstrained) ∧
      KeepsRule { tree with
        valueType := some loose, children := tree.children.set index changed } := by
  simp only [KeepsRule, list] at keeps ⊢
  obtain ⟨shared, typed, shares⟩ := keeps
  have members : ∀ other ∈ (tree.children.set index changed).map operand,
      other.valueType = some .unconstrained ∨
        ∃ member ∈ tree.children.map operand, other.valueType = member.valueType := by
    rw [List.forall_mem_map]
    refine forall_mem_set index (fun child member => .inr ?_) (.inl free)
    exact ⟨child.operand, List.mem_map_of_mem member, rfl⟩
  obtain ⟨loose, shares', looser⟩ := shares.loosen members
  refine ⟨loose, ?_, ?_, loose, rfl, shares'⟩
  · rw [sharedType_eq_ok_iff.mpr shares']
    rfl
  · exact looser.imp_left fun same => by rw [same, typed]

/-- With an unconstrained expression at the end of a path a well-typed tree stays so. Types beside that
node's change in a list at most. -/
theorem WellTyped.graft (wellTyped : tree.WellTyped) (layered : tree.Layered)
    (found : tree.descend? path = some node) (expression : node.kind = .expression)
    (otherTyped : other.WellTyped) (free : other.valueType = some .unconstrained) :
    (tree.graft path other).WellTyped ∧ (tree.graft path other).Loosens tree ∧
      (path ≠ [] → tree.kind ≠ .expressionList →
        (tree.graft path other).valueType = tree.valueType) := by
  induction path generalizing tree with
  | nil => exact ⟨otherTyped, .inr free, fun nonempty => absurd rfl nonempty⟩
  | cons index path ih =>
    obtain ⟨child, listed, found⟩ := descend?_cons_eq_some_iff.mp found
    obtain ⟨keeps, below⟩ := wellTyped_iff.mp wellTyped
    have member := List.mem_of_getElem? listed
    obtain ⟨childTyped, loosens, same⟩ := ih (below child member) (layered.below listed) found
    have belowGraft : ∀ each ∈ tree.children.set index (child.graft path other), each.WellTyped :=
      forall_mem_set index below childTyped
    by_cases list : tree.kind = .expressionList ∧ path = []
    · obtain ⟨list, rfl⟩ := list
      obtain ⟨loose, settled, looser, keeps⟩ := keeps.set_member index list free
      rw [graft_member listed list, settled]
      refine ⟨wellTyped_iff.mpr ⟨keeps, belowGraft⟩, ?_, fun _ other => absurd list other⟩
      exact looser.imp_right (congrArg some)
    · rw [graft_cons_of_ne listed list]
      -- A child of an expression is no expression and no list, and one of a list is where the path
      -- goes on, so what these two take their types from is as it was.
      have unchanged : tree.kind = .expression ∨ tree.kind = .expressionList →
          (child.graft path other).valueType = child.valueType := by
        rintro (kind | kind)
        · obtain ⟨noExpression, noList⟩ := layered.expressions [] tree rfl kind child member
          refine same (fun here => ?_) noList
          subst here
          cases found
          exact noExpression expression
        · have childKind := layered.lists [] tree rfl kind child member
          exact same (fun here => list ⟨kind, here⟩) (by simp [childKind])
      exact ⟨wellTyped_iff.mpr ⟨keeps.set_child listed loosens unchanged, belowGraft⟩, .inl rfl,
        fun _ _ => rfl⟩

end

end Node

end TypedLisp
