import TypedLisp.Graph
import TypedLisp.Node

/-! Flattening a tree to a graph.

Nodes are visited in preorder and numbered as they are; a node's label is its
kind and, on lines of their own, its leaves in parentheses.
-/

set_option autoImplicit false

namespace TypedLisp

def Node.label (node : Node) : String :=
  node.kind.name ++ String.join (node.leaves.map fun leaf => "\n(" ++ leaf ++ ")")

namespace Graph

def identityOf (number : Nat) : String :=
  "node" ++ toString number

/-- A node to be visited and the identity of its parent. -/
structure Pending where
  parent : Option String
  node : Node

def pendingSize (pending : List Pending) : Nat :=
  Node.sizeAll (pending.map Pending.node)

theorem sizeAll_append (first second : List Node) :
    Node.sizeAll (first ++ second) = Node.sizeAll first + Node.sizeAll second := by
  induction first with
  | nil => simp [Node.sizeAll]
  | cons node rest ih => simp [Node.sizeAll, ih, Nat.add_assoc]

def pendingChildren (identity : String) (node : Node) : List Pending :=
  node.children.map (Pending.mk (some identity))

theorem pendingSize_children_append (identity : String) (parent : Option String) (node : Node)
    (rest : List Pending) :
    pendingSize (pendingChildren identity node ++ rest) < pendingSize (⟨parent, node⟩ :: rest) := by
  have children : (pendingChildren identity node).map Pending.node = node.children := by
    simp [pendingChildren, Function.comp_def]
  simp only [pendingSize, List.map_append, children, sizeAll_append, List.map_cons, Node.sizeAll,
    Node.size_eq]
  omega

/-- Visits the pending nodes, the first of which gets `number`. -/
def visit (number : Nat) : List Pending → Graph
  | [] => ⟨[], []⟩
  | ⟨parent, node⟩ :: rest =>
      let identity := identityOf number
      let later := visit (number + 1) (pendingChildren identity node ++ rest)
      ⟨⟨identity, node.label⟩ :: later.vertices,
        (parent.map fun parent => ⟨parent, identity⟩).toList ++ later.edges⟩
termination_by pending => pendingSize pending
decreasing_by exact pendingSize_children_append _ _ _ _

def ofNode (node : Node) : Graph :=
  visit 0 [⟨none, node⟩]

end Graph

end TypedLisp
