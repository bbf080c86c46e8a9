import TypedLisp.Proofs.Node.Lines
import TypedLisp.Proofs.Typing.Settled

/-! The rules of nodes on other lines.

Neither the rule of a node nor how deep it nests depends on lines, so a tree keeps
both when its lines are changed.
-/

set_option autoImplicit false

namespace TypedLisp.Node

variable (change : Nat → Nat)

mutual

theorem nestingFrom_mapLines (called : Bool) :
    (node : Node) → (node.mapLines change).nestingFrom called = node.nestingFrom called
  | ⟨kind, valueType, line, leaves, children⟩ => by
      rw [mapLines, nestingFrom, nestingFrom, nestingAll_mapLines]

theorem nestingAll_mapLines (called : Bool) :
    (nodes : List Node) → nestingAll called (mapLinesAll change nodes) = nestingAll called nodes
  | [] => rfl
  | node :: siblings => by
      rw [mapLinesAll, nestingAll, nestingAll, nestingFrom_mapLines, nestingAll_mapLines]

end

theorem nesting_mapLines (node : Node) : (node.mapLines change).nesting = node.nesting :=
  nestingFrom_mapLines change false node

mutual

theorem postorder_mapLines :
    (node : Node) → (node.mapLines change).postorder = node.postorder.map (mapLines change)
  | ⟨kind, valueType, line, leaves, children⟩ => by
      rw [mapLines, postorder, postorder, postorderAll_mapLines, List.map_append]
      rfl

theorem postorderAll_mapLines :
    (nodes : List Node) →
      postorderAll (mapLinesAll change nodes) = (postorderAll nodes).map (mapLines change)
  | [] => rfl
  | node :: siblings => by
      rw [mapLinesAll, postorderAll, postorderAll, postorder_mapLines, postorderAll_mapLines,
        List.map_append]

end

theorem keepsRule_mapLines (node : Node) : (node.mapLines change).KeepsRule ↔ node.KeepsRule := by
  unfold KeepsRule
  rw [kind_mapLines, valueType_mapLines, children_mapLines]
  cases node.kind <;> simp [Function.comp_def]

theorem wellTyped_mapLines {tree : Node} : (tree.mapLines change).WellTyped ↔ tree.WellTyped := by
  simp only [WellTyped, postorder_mapLines, List.forall_mem_map, keepsRule_mapLines]

theorem wellTyped_iff {tree : Node} :
    tree.WellTyped ↔ tree.KeepsRule ∧ ∀ child ∈ tree.children, child.WellTyped := by
  constructor
  · intro wellTyped
    refine ⟨wellTyped tree (mem_postorder.mpr (.inr rfl)), fun child below node member => ?_⟩
    exact wellTyped node (mem_postorder.mpr (.inl ⟨child, below, member⟩))
  · rintro ⟨keeps, below⟩ node member
    rcases mem_postorder.mp member with ⟨child, listed, member⟩ | rfl
    · exact below child listed node member
    · exact keeps

end TypedLisp.Node
