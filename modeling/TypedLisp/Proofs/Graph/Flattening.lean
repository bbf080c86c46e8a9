import TypedLisp.Proofs.Node.Positions

/-! Flattening is the recursive preorder.

The walk keeps the nodes still to be visited with the identities of their parents.
What it will list is settled by these alone: every pending node gets the next number,
and its descendants the numbers right after it. So the number of a node is its
position in the preorder, and an edge leads to every node but the root.
-/

set_option autoImplicit false

namespace TypedLisp.Graph

theorem identityOf_injective {first second : Nat} (same : identityOf first = identityOf second) :
    first = second := by
  have digits : Nat.toDigits 10 first = Nat.toDigits 10 second := by
    have texts := (String.append_right_inj "node").mp same
    rwa [Nat.toString_eq_repr, Nat.toString_eq_repr, Nat.repr_eq_ofList_toDigits,
      Nat.repr_eq_ofList_toDigits, String.ofList_inj] at texts
  have back := congrArg (Nat.ofDigitChars 10 · 0) digits
  simpa only [Nat.ofDigitChars_ten_toDigits] using back

/-! ## What a walk lists -/

def verticesFrom (number : Nat) (nodes : List Node) : List Vertex :=
  (nodes.zipIdx number).map fun entry => ⟨identityOf entry.2, entry.1.label⟩

mutual

def edgesFrom (number : Nat) : Node → List Edge
  | ⟨_, _, _, _, children⟩ => edgesAll number (number + 1) children

/-- The edges from a parent to its children, the first of which has the number `next`, each
followed by those below the child. -/
def edgesAll (parent next : Nat) : List Node → List Edge
  | [] => []
  | node :: siblings =>
      ⟨identityOf parent, identityOf next⟩ ::
        (edgesFrom next node ++ edgesAll parent (next + node.size) siblings)

end

/-- The edges that are still to be listed. -/
def pendingEdges (number : Nat) : List Pending → List Edge
  | [] => []
  | ⟨parent, node⟩ :: rest =>
      (parent.map fun parent => ⟨parent, identityOf number⟩).toList ++
        (edgesFrom number node ++ pendingEdges (number + node.size) rest)

theorem edgesFrom_eq (number : Nat) (node : Node) :
    edgesFrom number node = edgesAll number (number + 1) node.children := by
  cases node
  rfl

theorem pendingEdges_children (parent next : Nat) (children : List Node) (rest : List Pending) :
    pendingEdges next (children.map (Pending.mk (some (identityOf parent))) ++ rest) =
      edgesAll parent next children ++ pendingEdges (next + Node.sizeAll children) rest := by
  induction children generalizing next with
  | nil => rfl
  | cons child children ih =>
    rw [List.map_cons, List.cons_append, pendingEdges, ih, edgesAll, Node.sizeAll, Nat.add_assoc]
    simp only [Option.map_some, Option.toList_some, List.cons_append, List.nil_append,
      List.append_assoc]

/-- The invariant of the walk: the pending nodes settle all that it will list. -/
theorem visit_eq (number : Nat) (pending : List Pending) :
    visit number pending =
      ⟨verticesFrom number ((pending.map Pending.node).flatMap Node.nodes),
        pendingEdges number pending⟩ := by
  induction number, pending using visit.induct with
  | case1 number =>
    rw [visit]
    rfl
  | case2 number parent node rest identity ih =>
    have nodes : ((pendingChildren identity node ++ rest).map Pending.node).flatMap Node.nodes =
        node.children.flatMap Node.nodes ++ (rest.map Pending.node).flatMap Node.nodes := by
      simp [pendingChildren, Function.comp_def]
    have edges : pendingEdges (number + 1) (pendingChildren identity node ++ rest) =
        edgesFrom number node ++ pendingEdges (number + node.size) rest := by
      rw [pendingChildren, pendingEdges_children, edgesFrom_eq, Node.size_eq]
      congr 2
      omega
    rw [visit, ih, nodes, edges, pendingEdges, List.map_cons, List.flatMap_cons, Node.nodes_eq]
    rfl

theorem ofNode_eq (tree : Node) : ofNode tree = ⟨verticesFrom 0 tree.nodes, edgesFrom 0 tree⟩ := by
  rw [ofNode, visit_eq]
  simp [pendingEdges]

/-! ## Vertices -/

theorem map_identity_verticesFrom (number : Nat) (nodes : List Node) :
    (verticesFrom number nodes).map Vertex.identity =
      (List.range' number nodes.length).map identityOf := by
  rw [verticesFrom, List.map_map, ← List.zipIdx_map_snd, List.map_map]
  rfl

theorem nodup_verticesFrom (number : Nat) (nodes : List Node) :
    ((verticesFrom number nodes).map Vertex.identity).Nodup := by
  rw [map_identity_verticesFrom]
  refine List.Pairwise.map identityOf (fun first second apart same => ?_) List.nodup_range'
  exact apart (identityOf_injective same)

theorem mem_verticesFrom (number : Nat) {index : Nat} {nodes : List Node} {node : Node}
    (listed : nodes[index]? = some node) :
    ⟨identityOf (number + index), node.label⟩ ∈ verticesFrom number nodes := by
  refine List.mem_map.mpr ⟨(node, number + index), List.mem_of_getElem? (i := index) ?_, rfl⟩
  rw [List.getElem?_zipIdx, listed]
  rfl

theorem find?_identity {vertices : List Vertex} {vertex : Vertex}
    (distinct : (vertices.map Vertex.identity).Nodup) (member : vertex ∈ vertices) :
    vertices.find? (·.identity == vertex.identity) = some vertex := by
  induction vertices with
  | nil => cases member
  | cons first vertices ih =>
    obtain ⟨fresh, distinct⟩ := List.nodup_cons.mp distinct
    rcases List.mem_cons.mp member with rfl | member
    · simp
    · have other : first.identity ≠ vertex.identity := fun same =>
        fresh (same ▸ List.mem_map_of_mem member)
      rw [List.find?_cons_of_neg (by simpa using other), ih distinct member]

section
variable {tree node : Node} {path : List Nat}

theorem label?_ofNode (found : tree.descend? path = some node) :
    (ofNode tree).label? (identityOf (tree.position path)) = some node.label := by
  have member := mem_verticesFrom 0 (Node.getElem?_nodes found)
  rw [Nat.zero_add] at member
  rw [label?, ofNode_eq, find?_identity (nodup_verticesFrom 0 tree.nodes) member]
  rfl

theorem shownLabel_ofNode (found : tree.descend? path = some node) :
    (ofNode tree).shownLabel (identityOf (tree.position path)) = node.label := by
  have member := mem_verticesFrom 0 (Node.getElem?_nodes found)
  rw [Nat.zero_add] at member
  have distinct : ((verticesFrom 0 tree.nodes).reverse.map Vertex.identity).Nodup := by
    rw [List.map_reverse, List.Nodup, List.pairwise_reverse]
    exact (nodup_verticesFrom 0 tree.nodes).imp Ne.symm
  rw [shownLabel, ofNode_eq, find?_identity distinct (List.mem_reverse.mpr member)]
  rfl

theorem root?_ofNode (tree : Node) : (ofNode tree).root? = some (identityOf 0) := by
  rw [root?, ofNode_eq, Node.nodes_eq]
  rfl

end

/-! ## Edges -/

mutual

theorem length_edgesFrom (number : Nat) :
    (node : Node) → (edgesFrom number node).length + 1 = node.size
  | ⟨kind, valueType, line, leaves, children⟩ => by
      rw [edgesFrom, length_edgesAll, Node.size]

theorem length_edgesAll (parent next : Nat) :
    (nodes : List Node) → (edgesAll parent next nodes).length = Node.sizeAll nodes
  | [] => rfl
  | node :: siblings => by
      have first := length_edgesFrom next node
      have others := length_edgesAll parent (next + node.size) siblings
      rw [edgesAll, List.length_cons, List.length_append, Node.sizeAll]
      omega

end

theorem edgesAll_append (parent next : Nat) (first second : List Node) :
    edgesAll parent next (first ++ second) =
      edgesAll parent next first ++ edgesAll parent (next + Node.sizeAll first) second := by
  induction first generalizing next with
  | nil => rfl
  | cons node first ih =>
    rw [List.cons_append, edgesAll, ih, edgesAll, Node.sizeAll, Nat.add_assoc]
    simp only [List.cons_append, List.append_assoc]

theorem edgesAll_split {nodes : List Node} {child : Node} {index : Nat}
    (listed : nodes[index]? = some child) (parent next : Nat) :
    edgesAll parent next nodes =
      edgesAll parent next (nodes.take index) ++
        ⟨identityOf parent, identityOf (next + Node.sizeAll (nodes.take index))⟩ ::
          (edgesFrom (next + Node.sizeAll (nodes.take index)) child ++
            edgesAll parent (next + Node.sizeAll (nodes.take index) + child.size)
              (nodes.drop (index + 1))) := by
  have pieces := congrArg (edgesAll parent next) (Node.split_children listed)
  rwa [edgesAll_append, edgesAll] at pieces

-- Each node but the first is reached by one edge, so the edges below a node come after as many as its
-- position.
theorem edgesFrom_split {tree node : Node} {path : List Nat} (found : tree.descend? path = some node)
    (number : Nat) :
    ∃ before after, before.length = tree.position path ∧
      edgesFrom number tree = before ++ (edgesFrom (number + tree.position path) node ++ after) := by
  induction path generalizing tree number with
  | nil =>
    cases found
    exact ⟨[], [], rfl, (List.append_nil _).symm⟩
  | cons index path ih =>
    obtain ⟨child, listed, found⟩ := Node.descend?_cons_eq_some_iff.mp found
    let elder := Node.sizeAll (tree.children.take index)
    obtain ⟨before, after, length, inner⟩ := ih found (number + 1 + elder)
    have position : tree.position (index :: path) = elder + child.position path + 1 :=
      Node.position_cons listed
    refine ⟨edgesAll number (number + 1) (tree.children.take index) ++
        ⟨identityOf number, identityOf (number + 1 + elder)⟩ :: before,
      after ++ edgesAll number (number + 1 + elder + child.size) (tree.children.drop (index + 1)),
      ?_, ?_⟩
    · rw [List.length_append, length_edgesAll, List.length_cons, length, position, Nat.add_assoc]
    · have here : number + 1 + elder + child.position path = number + tree.position (index :: path) := by
        omega
      rw [edgesFrom_eq, edgesAll_split listed, inner, here]
      simp only [List.append_assoc, List.cons_append]
      rfl

theorem getElem?_edges_ofNode {tree child : Node} {path : List Nat} {index : Nat}
    (found : tree.descend? (path ++ [index]) = some child) :
    tree.position path < tree.position (path ++ [index]) ∧
      (ofNode tree).edges[tree.position (path ++ [index]) - 1]? =
        some ⟨identityOf (tree.position path), identityOf (tree.position (path ++ [index]))⟩ := by
  have reached := found
  rw [Node.descend?_append] at reached
  obtain ⟨node, above, -⟩ := Option.bind_eq_some_iff.mp reached
  rw [Node.descend?_concat above] at found
  obtain ⟨before, after, length, split⟩ := edgesFrom_split above 0
  have edge := edgesAll_split found (tree.position path) (tree.position path + 1)
  rw [Node.position_concat above found]
  refine ⟨by omega, ?_⟩
  -- Before this edge are those before its parent's piece and those to its elder siblings.
  have elder := length_edgesAll (tree.position path) (tree.position path + 1) (node.children.take index)
  have number : tree.position path + 1 + Node.sizeAll (node.children.take index) =
      tree.position path + Node.sizeAll (node.children.take index) + 1 := by omega
  rw [ofNode_eq, split, Nat.zero_add, edgesFrom_eq, edge, Nat.add_sub_cancel,
    List.getElem?_append_right (by omega), List.append_assoc, List.getElem?_append_right (by omega),
    length, elder, Nat.add_sub_cancel_left, Nat.sub_self, number]
  rfl

mutual

theorem parent_of_mem_edgesFrom {edge : Edge} (number : Nat) :
    (node : Node) → edge ∈ edgesFrom number node →
      ∃ place, edge.parent = identityOf place ∧ number ≤ place ∧ place < number + node.size
  | ⟨kind, valueType, line, leaves, children⟩, member => by
      rw [edgesFrom] at member
      rw [Node.size]
      rcases parent_of_mem_edgesAll number (number + 1) children member with
        same | ⟨place, same, low, high⟩
      · exact ⟨number, same, Nat.le_refl _, by omega⟩
      · exact ⟨place, same, by omega, by omega⟩

theorem parent_of_mem_edgesAll {edge : Edge} (parent next : Nat) :
    (nodes : List Node) → edge ∈ edgesAll parent next nodes →
      edge.parent = identityOf parent ∨
        ∃ place, edge.parent = identityOf place ∧ next ≤ place ∧ place < next + Node.sizeAll nodes
  | [], member => absurd member List.not_mem_nil
  | node :: siblings, member => by
      rw [edgesAll, List.mem_cons, List.mem_append] at member
      rw [Node.sizeAll]
      rcases member with rfl | member | member
      · exact .inl rfl
      · obtain ⟨place, same, low, high⟩ := parent_of_mem_edgesFrom next node member
        exact .inr ⟨place, same, low, by omega⟩
      · rcases parent_of_mem_edgesAll parent (next + node.size) siblings member with
          same | ⟨place, same, low, high⟩
        · exact .inl same
        · exact .inr ⟨place, same, by omega, by omega⟩

end

def startingAt (number : Nat) (edges : List Edge) : List Edge :=
  edges.filter (·.parent == identityOf number)

theorem startingAt_append (number : Nat) (first second : List Edge) :
    startingAt number (first ++ second) = startingAt number first ++ startingAt number second :=
  List.filter_append ..

theorem startingAt_eq_nil {number : Nat} {edges : List Edge}
    (elsewhere : ∀ edge ∈ edges, ∃ place, edge.parent = identityOf place ∧ place ≠ number) :
    startingAt number edges = [] := by
  refine List.filter_eq_nil_iff.mpr fun edge member same => ?_
  obtain ⟨place, parent, apart⟩ := elsewhere edge member
  exact apart (identityOf_injective (parent.symm.trans (by simpa using same)))

theorem startingAt_edgesFrom {tree node : Node} {path : List Nat}
    (found : tree.descend? path = some node) (number : Nat) :
    startingAt (number + tree.position path) (edgesFrom number tree) =
      startingAt (number + tree.position path) (edgesFrom (number + tree.position path) node) := by
  induction path generalizing tree number with
  | nil =>
    cases found
    rfl
  | cons index path ih =>
    obtain ⟨child, listed, found⟩ := Node.descend?_cons_eq_some_iff.mp found
    let elder := Node.sizeAll (tree.children.take index)
    have position : tree.position (index :: path) = elder + child.position path + 1 :=
      Node.position_cons listed
    have here : number + tree.position (index :: path) =
        number + 1 + elder + child.position path := by omega
    have inside := Node.position_add_size_le found
    have positive := Node.size_pos node
    -- Of the pieces around the child none has an edge that starts below the child.
    have before : startingAt (number + 1 + elder + child.position path)
        (edgesAll number (number + 1) (tree.children.take index)) = [] := by
      refine startingAt_eq_nil fun edge member => ?_
      rcases parent_of_mem_edgesAll _ _ _ member with same | ⟨place, same, -, high⟩
      · exact ⟨number, same, by omega⟩
      · exact ⟨place, same, by omega⟩
    have after : startingAt (number + 1 + elder + child.position path)
        (edgesAll number (number + 1 + elder + child.size) (tree.children.drop (index + 1))) = [] := by
      refine startingAt_eq_nil fun edge member => ?_
      rcases parent_of_mem_edgesAll _ _ _ member with same | ⟨place, same, low, -⟩
      · exact ⟨number, same, by omega⟩
      · exact ⟨place, same, by omega⟩
    have own : startingAt (number + 1 + elder + child.position path)
        [⟨identityOf number, identityOf (number + 1 + elder)⟩] = [] :=
      startingAt_eq_nil (List.forall_mem_singleton.mpr ⟨number, rfl, by omega⟩)
    rw [here, edgesFrom_eq number, edgesAll_split listed, ← List.singleton_append, startingAt_append,
      startingAt_append, startingAt_append, before, own, after, ih found, List.append_nil]
    rfl

theorem startingAt_edgesAll {parent next : Nat} (later : parent < next) (nodes : List Node) :
    (startingAt parent (edgesAll parent next nodes)).map Edge.child =
      (List.range nodes.length).map fun index =>
        identityOf (next + Node.sizeAll (nodes.take index)) := by
  induction nodes generalizing next with
  | nil => rfl
  | cons node nodes ih =>
    have below : startingAt parent (edgesFrom next node) = [] := by
      refine startingAt_eq_nil fun edge member => ?_
      obtain ⟨place, same, low, -⟩ := parent_of_mem_edgesFrom next node member
      exact ⟨place, same, by omega⟩
    have own : startingAt parent [⟨identityOf parent, identityOf next⟩] =
        [⟨identityOf parent, identityOf next⟩] := by simp [startingAt]
    rw [edgesAll, ← List.singleton_append, startingAt_append, startingAt_append, own, below,
      List.nil_append, List.map_append, ih (by omega), List.length_cons, List.range_succ_eq_map]
    simp [Function.comp_def, Node.sizeAll, Nat.add_assoc]

theorem children_ofNode {tree node : Node} {path : List Nat} (found : tree.descend? path = some node) :
    (ofNode tree).children (identityOf (tree.position path)) =
      (List.range node.children.length).map fun index =>
        identityOf (tree.position (path ++ [index])) := by
  have edges := startingAt_edgesFrom found 0
  rw [Nat.zero_add] at edges
  have direct := startingAt_edgesAll (Nat.lt_succ_self (tree.position path)) node.children
  rw [children, ofNode_eq]
  refine ((congrArg (List.map Edge.child) edges).trans ?_).trans (direct.trans ?_)
  · rw [edgesFrom_eq]
  · refine List.map_congr_left fun index member => ?_
    have listed := List.getElem?_eq_getElem (List.mem_range.mp member)
    rw [Node.position_concat found listed, Nat.add_right_comm]

/-! ## The graph of a tree -/

/-- A graph lists a tree. The number of a node is its position in the preorder, and its label the name
of its kind with its leaves below it, each in parentheses on a line of its own. -/
structure Flattens (graph : Graph) (tree : Node) : Prop where
  vertices : graph.vertices = tree.nodes.zipIdx.map fun entry =>
    ⟨"node" ++ toString entry.2,
      entry.1.kind.name ++ String.join (entry.1.leaves.map fun leaf => "\n(" ++ leaf ++ ")")⟩
  distinct : (graph.vertices.map Vertex.identity).Nodup
  listed : ∀ path node, tree.descend? path = some node →
    tree.nodes[tree.position path]? = some node
  /-- Every number is that of one path, of which the end is the child of an earlier node unless it is
  the root. The edge from that node is listed by the number. -/
  edges : ∀ number, 0 < number → number < tree.size →
    ∃ parent index, (tree.descend? (parent ++ [index])).isSome ∧
      tree.position (parent ++ [index]) = number ∧ tree.position parent < number ∧
      graph.edges[number - 1]? =
        some ⟨"node" ++ toString (tree.position parent), "node" ++ toString number⟩
  length_edges : graph.edges.length + 1 = tree.size
  /-- A node and its descendants have as many numbers one after another. -/
  contiguous : ∀ path longer node, tree.descend? path = some node → (tree.descend? longer).isSome →
    (path <+: longer ↔ tree.position path ≤ tree.position longer ∧
      tree.position longer < tree.position path + node.size)
  root : graph.root? = some "node0"
  label : ∀ path node, tree.descend? path = some node →
    graph.label? ("node" ++ toString (tree.position path)) =
      some (node.kind.name ++ String.join (node.leaves.map fun leaf => "\n(" ++ leaf ++ ")"))
  children : ∀ path node, tree.descend? path = some node →
    graph.children ("node" ++ toString (tree.position path)) =
      (List.range node.children.length).map fun index =>
        "node" ++ toString (tree.position (path ++ [index]))

theorem edge_ofNode {tree : Node} {number : Nat} (positive : 0 < number) (bound : number < tree.size) :
    ∃ parent index, (tree.descend? (parent ++ [index])).isSome ∧
      tree.position (parent ++ [index]) = number ∧ tree.position parent < number ∧
      (ofNode tree).edges[number - 1]? =
        some ⟨identityOf (tree.position parent), identityOf number⟩ := by
  obtain ⟨path, child, found, rfl⟩ := Node.exists_path tree bound
  obtain rfl | ⟨parent, index, rfl⟩ := List.eq_nil_or_concat path
  · exact absurd positive (Nat.lt_irrefl 0)
  rw [List.concat_eq_append] at found positive bound ⊢
  obtain ⟨earlier, edge⟩ := getElem?_edges_ofNode found
  exact ⟨parent, index, Option.isSome_of_eq_some found, rfl, earlier, edge⟩

/-- Every tree is flattened to its preorder. -/
theorem ofNode_flattens (tree : Node) : (ofNode tree).Flattens tree where
  vertices := by rw [ofNode_eq]; rfl
  distinct := by
    rw [ofNode_eq]
    exact nodup_verticesFrom 0 tree.nodes
  listed _ _ found := Node.getElem?_nodes found
  edges _ positive bound := edge_ofNode positive bound
  length_edges := by
    rw [ofNode_eq]
    exact length_edgesFrom 0 tree
  contiguous path longer node found found' := by
    obtain ⟨other, found'⟩ := Option.isSome_iff_exists.mp found'
    exact Node.prefix_iff_position found found'
  root := root?_ofNode tree
  label _ _ found := label?_ofNode found
  children _ _ found := children_ofNode found

end TypedLisp.Graph
