import TypedLisp.Graph
import TypedLisp.Text.Lines

/-! The outline of a graph: its rows depth first from the root.

An identity is listed once for every path that leads to it. In a graph without a
cycle no path is longer than the list of edges, which bounds the depth.
-/

set_option autoImplicit false

namespace TypedLisp

structure OutlineLine where
  depth : Nat
  identity : String
  label : String
  deriving Repr, DecidableEq

namespace OutlineLine

/-- The label's lines: a name and one entry for each leaf. -/
def labelLines (row : OutlineLine) : List String :=
  (Text.split '\n' row.label.toList).map String.ofList

def indented (row : OutlineLine) : String :=
  String.join (List.replicate row.depth "  ") ++
    row.label.map fun character => if character = '\n' then ' ' else character

end OutlineLine

namespace Graph

def Index.outlineFrom (index : Index) : (levels depth : Nat) → String → List OutlineLine
  | 0, _, _ => []
  | levels + 1, depth, identity =>
      ⟨depth, identity, index.labels.getD identity identity⟩ ::
        (index.children.getD identity []).flatMap (index.outlineFrom levels (depth + 1))

def outline (graph : Graph) : List OutlineLine :=
  match graph.root? with
  | none => []
  | some root => graph.index.outlineFrom (graph.edges.length + 1) 0 root

mutual

/-- The rows of an identity and of all that its edges lead to. -/
inductive Lists (graph : Graph) : (depth : Nat) → String → List OutlineLine → Prop where
  | row {depth : Nat} {identity : String} {below : List OutlineLine} :
      ListsAll graph (depth + 1) (graph.children identity) below →
      Lists graph depth identity (⟨depth, identity, graph.shownLabel identity⟩ :: below)

inductive ListsAll (graph : Graph) : (depth : Nat) → List String → List OutlineLine → Prop where
  | nil {depth : Nat} : ListsAll graph depth [] []
  | cons {depth : Nat} {identity : String} {siblings : List String}
      {rows others : List OutlineLine} :
      Lists graph depth identity rows → ListsAll graph depth siblings others →
      ListsAll graph depth (identity :: siblings) (rows ++ others)

end

def outlineText (graph : Graph) : String :=
  String.join (graph.outline.map fun row => row.indented ++ "\n")

end Graph

end TypedLisp
