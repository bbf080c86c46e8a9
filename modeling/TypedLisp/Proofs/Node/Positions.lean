import TypedLisp.Graph.Flatten
import TypedLisp.Proofs.Grafting.Paths

/-! Where the nodes of a tree stand in its preorder.

A path leads to a node, and its position is the number of nodes visited before that
one. Paths and positions correspond one to one, and the nodes at and below a path
are the positions from its own on, as many as the node there has nodes.
-/

set_option autoImplicit false

namespace TypedLisp.Node

/-- How many nodes stand before the one at the end of a path. -/
def position : (tree : Node) → (path : List Nat) → Nat
  | _, [] => 0
  | tree, index :: path =>
      sizeAll (tree.children.take index) +
        (tree.children[index]?.map (·.position path)).getD 0 + 1

section
variable {tree node child : Node} {index : Nat} {path : List Nat}

@[simp] theorem position_nil : tree.position [] = 0 := rfl

theorem position_cons (listed : tree.children[index]? = some child) :
    tree.position (index :: path) =
      sizeAll (tree.children.take index) + child.position path + 1 := by
  rw [position, listed]
  rfl

theorem size_pos (node : Node) : 0 < node.size := by
  rw [size_eq]
  exact Nat.succ_pos _

theorem sizeAll_take_add_le {nodes : List Node} {later : Nat} (listed : nodes[index]? = some child)
    (before : index < later) :
    sizeAll (nodes.take index) + child.size ≤ sizeAll (nodes.take later) := by
  have split : nodes.take later =
      nodes.take index ++ child :: (nodes.take later).drop (index + 1) := by
    have found : (nodes.take later)[index]? = some child := by
      rw [List.getElem?_take_of_lt before, listed]
    have pieces := split_children found
    rwa [List.take_take, Nat.min_eq_left (Nat.le_of_lt before)] at pieces
  rw [split, Graph.sizeAll_append, sizeAll]
  omega

theorem descend?_append {first second : List Nat} :
    tree.descend? (first ++ second) = (tree.descend? first).bind (·.descend? second) := by
  induction first generalizing tree with
  | nil => rfl
  | cons index first ih =>
    rw [List.cons_append, descend?, descend?]
    cases tree.children[index]? with
    | none => rfl
    | some child => exact ih

theorem descend?_concat (found : tree.descend? path = some node) :
    tree.descend? (path ++ [index]) = node.children[index]? := by
  rw [descend?_append, found, Option.bind_some, descend?]
  cases node.children[index]? <;> rfl

theorem position_append {second : List Nat} (found : tree.descend? path = some node) :
    tree.position (path ++ second) = tree.position path + node.position second := by
  induction path generalizing tree with
  | nil =>
    cases found
    exact (Nat.zero_add _).symm
  | cons index path ih =>
    obtain ⟨child, listed, found⟩ := descend?_cons_eq_some_iff.mp found
    rw [List.cons_append, position_cons listed, position_cons listed, ih found]
    omega

theorem position_concat (found : tree.descend? path = some node)
    (listed : node.children[index]? = some child) :
    tree.position (path ++ [index]) =
      tree.position path + sizeAll (node.children.take index) + 1 := by
  rw [position_append found, position_cons listed, position_nil]
  omega

theorem position_add_size_le (found : tree.descend? path = some node) :
    tree.position path + node.size ≤ tree.size := by
  induction path generalizing tree with
  | nil =>
    cases found
    exact Nat.le_of_eq (Nat.zero_add _)
  | cons index path ih =>
    obtain ⟨child, listed, found⟩ := descend?_cons_eq_some_iff.mp found
    have inside := ih found
    have bound : index < tree.children.length := (List.getElem?_eq_some_iff.mp listed).1
    have behind := sizeAll_take_add_le listed bound
    rw [List.take_length] at behind
    rw [position_cons listed, size_eq tree]
    omega

/-- The nodes at and below a path are the positions of as many nodes from its own on. -/
theorem prefix_iff_position {other : Node} {longer : List Nat}
    (found : tree.descend? path = some node) (found' : tree.descend? longer = some other) :
    path <+: longer ↔
      tree.position path ≤ tree.position longer ∧
        tree.position longer < tree.position path + node.size := by
  induction path generalizing tree longer with
  | nil =>
    cases found
    have bound := position_add_size_le found'
    have positive := size_pos other
    simp only [List.nil_prefix, position_nil, true_iff]
    omega
  | cons index path ih =>
    obtain ⟨child, listed, found⟩ := descend?_cons_eq_some_iff.mp found
    cases longer with
    | nil =>
      rw [position_cons listed]
      simp
    | cons index' longer =>
      obtain ⟨child', listed', found'⟩ := descend?_cons_eq_some_iff.mp found'
      have bound := position_add_size_le found
      have bound' := position_add_size_le found'
      have positive := size_pos node
      have positive' := size_pos other
      rw [position_cons listed, position_cons listed', List.cons_prefix_cons]
      -- In different children the positions are apart by at least the size of the elder one.
      rcases Nat.lt_trichotomy index index' with less | rfl | greater
      · have apart := sizeAll_take_add_le listed less
        omega
      · cases listed.symm.trans listed'
        rw [ih found found']
        omega
      · have apart := sizeAll_take_add_le listed' greater
        omega

end

mutual

theorem exists_path {place : Nat} :
    (tree : Node) → place < tree.size →
      ∃ path node, tree.descend? path = some node ∧ tree.position path = place
  | ⟨kind, valueType, line, leaves, children⟩, bound => by
      cases place with
      | zero => exact ⟨[], _, rfl, rfl⟩
      | succ place =>
        rw [size] at bound
        obtain ⟨index, child, path, node, listed, found, rfl⟩ :=
          exists_path_all place children (by omega)
        exact ⟨index :: path, node, descend?_cons_eq_some_iff.mpr ⟨child, listed, found⟩,
          position_cons listed⟩

theorem exists_path_all (place : Nat) :
    (nodes : List Node) → place < sizeAll nodes →
      ∃ index child path node, nodes[index]? = some child ∧ child.descend? path = some node ∧
        sizeAll (nodes.take index) + child.position path = place
  | [], bound => absurd bound (Nat.not_lt_zero _)
  | first :: nodes, bound => by
      rw [sizeAll] at bound
      by_cases within : place < first.size
      · obtain ⟨path, node, found, rfl⟩ := exists_path first within
        exact ⟨0, first, path, node, rfl, found, Nat.zero_add _⟩
      · obtain ⟨index, child, path, node, listed, found, same⟩ :=
          exists_path_all (place - first.size) nodes (by omega)
        refine ⟨index + 1, child, path, node, listed, found, ?_⟩
        rw [List.take_succ_cons, sizeAll]
        omega

end

/-! ## The preorder -/

theorem preorderAll_append (depth : Nat) (first second : List Node) :
    preorderAll depth (first ++ second) = preorderAll depth first ++ preorderAll depth second := by
  induction first with
  | nil => rfl
  | cons node first ih => rw [List.cons_append, preorderAll, ih, preorderAll, List.append_assoc]

/-- The preorder of a node stands as one piece in that of the tree, from its position on. -/
theorem preorderFrom_split {tree node : Node} {path : List Nat}
    (found : tree.descend? path = some node) (depth : Nat) :
    ∃ before after, before.length = tree.position path ∧
      tree.preorderFrom depth =
        before ++ (node.preorderFrom (depth + path.length) ++ after) := by
  induction path generalizing tree depth with
  | nil =>
    cases found
    exact ⟨[], [], rfl, (List.append_nil _).symm⟩
  | cons index path ih =>
    obtain ⟨child, listed, found⟩ := descend?_cons_eq_some_iff.mp found
    obtain ⟨before, after, length, inner⟩ := ih found (depth + 1)
    refine ⟨(depth, tree) :: (preorderAll (depth + 1) (tree.children.take index) ++ before),
      after ++ preorderAll (depth + 1) (tree.children.drop (index + 1)), ?_, ?_⟩
    · rw [position_cons listed, List.length_cons, List.length_append, length_preorderAll, length]
    · have deeper : depth + (index :: path).length = depth + 1 + path.length := by
        rw [List.length_cons]
        omega
      rw [preorderFrom_eq, split_children listed, preorderAll_append, preorderAll, inner, deeper]
      simp only [List.cons_append, List.append_assoc, ← split_children listed]

theorem getElem?_preorder {tree node : Node} {path : List Nat}
    (found : tree.descend? path = some node) :
    tree.preorder[tree.position path]? = some (path.length, node) := by
  obtain ⟨before, after, length, split⟩ := preorderFrom_split found 0
  rw [preorder, split, ← length, List.getElem?_append_right (Nat.le_refl _), Nat.sub_self,
    preorderFrom_eq, Nat.zero_add]
  rfl

theorem mem_preorder_iff {tree node : Node} {depth : Nat} :
    (depth, node) ∈ tree.preorder ↔ ∃ path, tree.descend? path = some node ∧ path.length = depth := by
  constructor
  · intro member
    obtain ⟨place, listed⟩ := List.mem_iff_getElem?.mp member
    have bound := (List.getElem?_eq_some_iff.mp listed).1
    rw [preorder, length_preorderFrom] at bound
    obtain ⟨path, other, found, rfl⟩ := exists_path tree bound
    cases listed.symm.trans (getElem?_preorder found)
    exact ⟨path, found, rfl⟩
  · rintro ⟨path, found, rfl⟩
    exact List.mem_of_getElem? (getElem?_preorder found)

/-! ## The nodes without their depths -/

def nodes (tree : Node) : List Node :=
  tree.preorder.map Prod.snd

mutual

theorem map_snd_preorderFrom (first second : Nat) :
    (tree : Node) → (tree.preorderFrom first).map Prod.snd = (tree.preorderFrom second).map Prod.snd
  | ⟨kind, valueType, line, leaves, children⟩ => by
      rw [preorderFrom, preorderFrom, List.map_cons, List.map_cons,
        map_snd_preorderAll (first + 1) (second + 1) children]

theorem map_snd_preorderAll (first second : Nat) :
    (trees : List Node) → (preorderAll first trees).map Prod.snd = (preorderAll second trees).map Prod.snd
  | [] => rfl
  | tree :: trees => by
      rw [preorderAll, preorderAll, List.map_append, List.map_append,
        map_snd_preorderFrom first second tree, map_snd_preorderAll first second trees]

end

theorem flatMap_nodes (trees : List Node) :
    trees.flatMap nodes = (preorderAll 1 trees).map Prod.snd := by
  induction trees with
  | nil => rfl
  | cons tree trees ih =>
    rw [List.flatMap_cons, ih, preorderAll, List.map_append, nodes, preorder,
      map_snd_preorderFrom 0 1 tree]

theorem nodes_eq (tree : Node) : tree.nodes = tree :: tree.children.flatMap nodes := by
  rw [flatMap_nodes, nodes, preorder, preorderFrom_eq]
  rfl

theorem mem_nodes {tree node : Node} :
    node ∈ tree.nodes ↔ node = tree ∨ ∃ child ∈ tree.children, node ∈ child.nodes := by
  rw [nodes_eq, List.mem_cons, List.mem_flatMap]

theorem getElem?_nodes {tree node : Node} {path : List Nat} (found : tree.descend? path = some node) :
    tree.nodes[tree.position path]? = some node := by
  rw [nodes, List.getElem?_map, getElem?_preorder found]
  rfl

end TypedLisp.Node
