import TypedLisp.Proofs.Graph.Flattening
import TypedLisp.Proofs.Graph.Listing
import TypedLisp.Proofs.Node.Leaves
import TypedLisp.Proofs.Text.Lines
import TypedLisp.Proofs.Writing.Adequacy
import TypedLisp.Viewer.TreePane

/-! The outline of a flattened tree.

From the edges of its graph a tree is listed again: the rows of a node are those of
its preorder, numbered by position. A label has the kind and every leaf on a line
of its own, so the viewer finds them again if no leaf has a line end in it.
-/

set_option autoImplicit false

namespace TypedLisp.Graph

/-! ## Rows -/

/-- The rows of nodes at some depths, numbered one after another. -/
def rowsFrom (number : Nat) (entries : List (Nat × Node)) : List OutlineLine :=
  (entries.zipIdx number).map fun entry => ⟨entry.1.1, identityOf entry.2, entry.1.2.label⟩

theorem rowsFrom_append (number : Nat) (first second : List (Nat × Node)) :
    rowsFrom number (first ++ second) =
      rowsFrom number first ++ rowsFrom (number + first.length) second := by
  rw [rowsFrom, List.zipIdx_append, List.map_append]
  rfl

mutual

theorem lists_ofNode {tree : Node} (depth : Nat) :
    (node : Node) → ∀ {path : List Nat}, tree.descend? path = some node →
      Lists (ofNode tree) depth (identityOf (tree.position path))
        (rowsFrom (tree.position path) (node.preorderFrom depth))
  | ⟨kind, valueType, line, leaves, children⟩, path, found => by
      have below := listsAll_ofNode (depth + 1) children [] found rfl
      have identities : (List.range' 0 children.length).map
          (fun index => identityOf (tree.position (path ++ [index]))) =
            (ofNode tree).children (identityOf (tree.position path)) := by
        rw [children_ofNode found, List.range_eq_range']
      rw [List.length_nil, identities] at below
      have row := Lists.row below
      rwa [shownLabel_ofNode found] at row

-- The elder children have been numbered already, so the younger ones start behind their sizes.
theorem listsAll_ofNode {tree : Node} (depth : Nat) :
    (younger : List Node) → ∀ {node : Node} {path : List Nat} (elder : List Node),
      tree.descend? path = some node → node.children = elder ++ younger →
      ListsAll (ofNode tree) depth
        ((List.range' elder.length younger.length).map fun index =>
          identityOf (tree.position (path ++ [index])))
        (rowsFrom (tree.position path + Node.sizeAll elder + 1) (Node.preorderAll depth younger))
  | [], node, path, elder, found, split => .nil
  | child :: younger, node, path, elder, found, split => by
      have listed : node.children[elder.length]? = some child := by simp [split]
      have reached : tree.descend? (path ++ [elder.length]) = some child :=
        (Node.descend?_concat found).trans listed
      have position := Node.position_concat found listed
      rw [split, List.take_left] at position
      have first := lists_ofNode depth child reached
      have others := listsAll_ofNode depth younger (elder ++ [child]) found
        (by rw [split, List.append_assoc]; rfl)
      have number : tree.position path + Node.sizeAll (elder ++ [child]) + 1 =
          tree.position path + Node.sizeAll elder + 1 + (child.preorderFrom depth).length := by
        rw [sizeAll_append, Node.length_preorderFrom, Node.sizeAll, Node.sizeAll]
        omega
      rw [List.length_append, List.length_singleton, number] at others
      rw [position] at first
      rw [Node.preorderAll, rowsFrom_append, List.length_cons, List.range'_succ, List.map_cons, position]
      exact .cons first others

end

theorem length_le_position {tree node : Node} {path : List Nat}
    (found : tree.descend? path = some node) : path.length ≤ tree.position path := by
  induction path generalizing tree with
  | nil => exact Nat.le_refl 0
  | cons index path ih =>
    obtain ⟨child, listed, found⟩ := Node.descend?_cons_eq_some_iff.mp found
    have inner := ih found
    rw [Node.position_cons listed, List.length_cons]
    omega

theorem lists_root (tree : Node) :
    Lists (ofNode tree) 0 (identityOf 0) (rowsFrom 0 tree.preorder) := by
  have found : tree.descend? [] = some tree := rfl
  exact lists_ofNode 0 tree found

-- No row is deeper than there are edges, which is as deep as the recursion goes.
theorem outline_ofNode (tree : Node) : (ofNode tree).outline = rowsFrom 0 tree.preorder := by
  refine outline_of_lists (root?_ofNode tree) (lists_root tree) fun row member => ?_
  obtain ⟨⟨⟨depth, node⟩, number⟩, listed, rfl⟩ := List.mem_map.mp member
  have entry : (depth, node) ∈ tree.preorder := (List.mem_zipIdx' listed).2 ▸ List.getElem_mem _
  obtain ⟨path, found, rfl⟩ := Node.mem_preorder_iff.mp entry
  have edges := (ofNode_eq tree ▸ length_edgesFrom 0 tree : (ofNode tree).edges.length + 1 = tree.size)
  have bound := Node.position_add_size_le found
  have positive := Node.size_pos node
  have shallow := length_le_position found
  show path.length ≤ (ofNode tree).edges.length
  omega

/-! ## Entries -/

def shownLeaf (leaf : String) : String :=
  "(" ++ leaf ++ ")"

theorem shownLeaf_injective {leaf other : String} (same : shownLeaf leaf = shownLeaf other) :
    leaf = other :=
  (String.append_right_inj "(").mp ((String.append_left_inj ")").mp same)

theorem toList_label (node : Node) :
    node.label.toList =
      node.kind.name.toList ++
        (node.leaves.map fun leaf => (shownLeaf leaf).toList).flatMap ('\n' :: ·) := by
  have bracket : "\n(".toList = '\n' :: "(".toList := rfl
  simp only [Node.label, shownLeaf, String.toList_append, String.toList_join, List.flatMap_map, bracket,
    List.cons_append]

theorem name_plain (kind : NodeKind) :
    ∀ character ∈ kind.name.toList, isBlank character = false := by
  have table : NodeKind.all.all fun kind => kind.name.toList.all fun character => !isBlank character := by
    decide
  intro character member
  have plain := List.all_eq_true.mp (List.all_eq_true.mp table kind (NodeKind.mem_all kind)) character member
  simpa using plain

theorem not_mem_of_not_blank {text : List Char} {blank : Char} (isBlank' : isBlank blank)
    (plain : ∀ character ∈ text, isBlank character = false) : blank ∉ text := by
  intro member
  simp [plain blank member] at isBlank'

theorem shownLeaf_not_mem {leaf : String} {character : Char} (absent : character ∉ leaf.toList)
    (other : character ∉ ['(', ')']) : character ∉ (shownLeaf leaf).toList := by
  simp only [List.mem_cons, List.not_mem_nil, or_false, not_or] at other
  simp only [shownLeaf, String.toList_append, List.mem_append, not_or]
  exact ⟨⟨by simpa using other.1, absent⟩, by simpa using other.2⟩

theorem ofOutline_label {node : Node} (unbroken : ∀ leaf ∈ node.leaves, '\n' ∉ leaf.toList)
    (depth : Nat) (identity : String) :
    TreeEntry.ofOutline ⟨depth, identity, node.label⟩ =
      ⟨depth, node.kind.name, node.leaves.map shownLeaf⟩ := by
  have pieces : Text.split '\n' node.label.toList =
      node.kind.name.toList :: node.leaves.map fun leaf => (shownLeaf leaf).toList := by
    rw [toList_label]
    refine Text.split_append_flatMap (not_mem_of_not_blank rfl (name_plain node.kind)) fun piece member => ?_
    obtain ⟨leaf, listed, rfl⟩ := List.mem_map.mp member
    exact shownLeaf_not_mem (unbroken leaf listed) (by decide)
  simp only [TreeEntry.ofOutline, OutlineLine.labelLines, pieces, List.map_cons, List.map_map,
    String.ofList_toList]
  simp [Function.comp_def]

theorem map_outline_ofNode {α : Type} {tree : Node} {ofRow : OutlineLine → α} {ofEntry : Nat × Node → α}
    (same : ∀ entry ∈ tree.preorder, ∀ number : Nat,
      ofRow ⟨entry.1, identityOf number, entry.2.label⟩ = ofEntry entry) :
    (ofNode tree).outline.map ofRow = tree.preorder.map ofEntry := by
  conv_rhs => rw [← List.zipIdx_map_fst 0 tree.preorder, List.map_map]
  rw [outline_ofNode, rowsFrom, List.map_map]
  refine List.map_congr_left fun entry member => same entry.1 ?_ entry.2
  exact (List.mem_zipIdx' member).2 ▸ List.getElem_mem _

theorem ofGraph_ofNode {tree : Node}
    (unbroken : ∀ node ∈ tree.nodes, ∀ leaf ∈ node.leaves, '\n' ∉ leaf.toList) :
    TreeEntry.ofGraph (ofNode tree) =
      tree.preorder.map fun entry => ⟨entry.1, entry.2.kind.name, entry.2.leaves.map shownLeaf⟩ :=
  map_outline_ofNode fun entry member _ =>
    ofOutline_label (unbroken entry.2 (List.mem_map_of_mem member)) entry.1 _

theorem unbroken_of_parse {source : String} {tree : Node} (parsed : parse source = .ok tree) :
    ∀ node ∈ tree.nodes, ∀ leaf ∈ node.leaves, '\n' ∉ leaf.toList := by
  obtain ⟨shape, -⟩ := shape_of_parse parsed
  intro node member leaf listed
  exact not_mem_of_not_blank rfl (shape.lexemeLeaves.not_blank member leaf listed)

/-- The outline has a row for each node in preorder, at the depth of its path. The walk lists the same
rows, and the viewer shows what stands in the tree if no leaf is broken, as in all that is read. -/
theorem outline_lists_tree (tree : Node) :
    ((ofNode tree).outline = tree.preorder.zipIdx.map fun entry =>
      ⟨entry.1.1, "node" ++ toString entry.2, entry.1.2.label⟩) ∧
    (∀ path node, tree.descend? path = some node →
      tree.preorder[tree.position path]? = some (path.length, node)) ∧
    (∃ root, (ofNode tree).root? = some root ∧
      (ofNode tree).index.Walks tree.size ⟨[], [(root, 0)]⟩ ⟨(ofNode tree).outline, []⟩) ∧
    ((∀ node ∈ tree.nodes, ∀ leaf ∈ node.leaves, '\n' ∉ leaf.toList) →
      TreeEntry.ofGraph (ofNode tree) = tree.preorder.map fun entry =>
        ⟨entry.1, entry.2.kind.name, entry.2.leaves.map fun leaf => "(" ++ leaf ++ ")"⟩) ∧
    ∀ source, parse source = .ok tree →
      ∀ node ∈ tree.nodes, ∀ leaf ∈ node.leaves, '\n' ∉ leaf.toList := by
  refine ⟨outline_ofNode tree, fun _ _ found => Node.getElem?_preorder found, ?_, ofGraph_ofNode,
    fun _ parsed => unbroken_of_parse parsed⟩
  have walks := walks_of_lists (lists_root tree)
  have length : (rowsFrom 0 tree.preorder).length = tree.size := by
    rw [rowsFrom, List.length_map, List.length_zipIdx, Node.preorder, Node.length_preorderFrom]
  rw [length, ← outline_ofNode] at walks
  exact ⟨identityOf 0, root?_ofNode tree, walks⟩

theorem outline_lists_tree_read :
    ∃ tree, parse "(print-num 1)" = .ok tree ∧
      TreeEntry.ofGraph (ofNode tree) = tree.preorder.map fun entry =>
        ⟨entry.1, entry.2.kind.name, entry.2.leaves.map fun leaf => "(" ++ leaf ++ ")"⟩ := by
  have taken : (parse "(print-num 1)").isOk := by decide +kernel
  cases parsed : parse "(print-num 1)" with
  | error error =>
    rw [parsed] at taken
    cases taken
  | ok tree =>
    obtain ⟨-, -, -, entries, unbroken⟩ := outline_lists_tree tree
    exact ⟨tree, rfl, entries (unbroken _ parsed)⟩

end TypedLisp.Graph
