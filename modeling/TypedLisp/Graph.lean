import Std.Data.HashMap

/-! Labelled graphs of a tree.

A graph is a list of vertices, each with an identity and a label, and a list of
edges between identities. Its root is the first vertex. Nothing keeps identities
distinct or makes edges end at vertices, so the queries say what they do then.
-/

set_option autoImplicit false

namespace TypedLisp

structure Vertex where
  identity : String
  label : String
  deriving Repr, DecidableEq

structure Edge where
  parent : String
  child : String
  deriving Repr, DecidableEq

structure Graph where
  vertices : List Vertex
  edges : List Edge
  deriving Repr, DecidableEq

namespace Graph

def root? (graph : Graph) : Option String :=
  graph.vertices.head?.map Vertex.identity

/-- The label of the first vertex of an identity. -/
def label? (graph : Graph) (identity : String) : Option String :=
  (graph.vertices.find? (·.identity == identity)).map Vertex.label

def children (graph : Graph) (identity : String) : List String :=
  (graph.edges.filter (·.parent == identity)).map Edge.child

/-- The label of the last vertex of an identity, or the identity where there is none. -/
def shownLabel (graph : Graph) (identity : String) : String :=
  ((graph.vertices.reverse.find? (·.identity == identity)).map Vertex.label).getD identity

structure Index where
  labels : Std.HashMap String String
  children : Std.HashMap String (List String)

def indexLabels (vertices : List Vertex) : Std.HashMap String String :=
  vertices.foldl (fun labels vertex => labels.insert vertex.identity vertex.label) ∅

def indexChildren (edges : List Edge) : Std.HashMap String (List String) :=
  edges.foldr
    (fun edge children => children.insert edge.parent (edge.child :: children.getD edge.parent [])) ∅

def index (graph : Graph) : Index :=
  ⟨indexLabels graph.vertices, indexChildren graph.edges⟩

theorem indexChildren_getD (edges : List Edge) (identity : String) :
    (indexChildren edges).getD identity [] =
      (edges.filter (·.parent == identity)).map Edge.child := by
  induction edges with
  | nil => simp [indexChildren]
  | cons edge rest ih =>
    have unfolded : indexChildren (edge :: rest) =
        (indexChildren rest).insert edge.parent
          (edge.child :: (indexChildren rest).getD edge.parent []) := rfl
    rw [unfolded, Std.HashMap.getD_insert, List.filter_cons]
    by_cases same : edge.parent = identity
    · subst same; simp [ih]
    · simp [same, ih]

theorem foldl_insert_getElem? (vertices : List Vertex) (labels : Std.HashMap String String)
    (identity : String) :
    (vertices.foldl (fun labels vertex => labels.insert vertex.identity vertex.label) labels)[identity]? =
      ((vertices.reverse.find? (·.identity == identity)).map Vertex.label).or labels[identity]? := by
  induction vertices generalizing labels with
  | nil => simp
  | cons vertex rest ih =>
    rw [List.foldl_cons, ih, List.reverse_cons, List.find?_append, Std.HashMap.getElem?_insert]
    by_cases same : vertex.identity = identity
    · cases rest.reverse.find? (·.identity == identity) <;> simp [same]
    · cases rest.reverse.find? (·.identity == identity) <;> simp [same]

theorem index_children (graph : Graph) (identity : String) :
    graph.index.children.getD identity [] = graph.children identity :=
  indexChildren_getD graph.edges identity

theorem index_labels (graph : Graph) (identity : String) :
    graph.index.labels.getD identity identity = graph.shownLabel identity := by
  rw [Std.HashMap.getD_eq_getD_getElem?]
  unfold index indexLabels shownLabel
  rw [foldl_insert_getElem?]
  simp

end Graph

end TypedLisp
