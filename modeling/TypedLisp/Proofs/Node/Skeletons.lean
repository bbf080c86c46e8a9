import TypedLisp.Proofs.Node.Positions
import TypedLisp.Proofs.Writing.Lexemes

/-! Trees without types and lines.

What is left of a tree can be listed in preorder, and the depths tell where each
node belongs: as long as the entries are deeper than a node they are below it. So
the list determines the skeleton of the tree, and with it the lexemes.
-/

set_option autoImplicit false

namespace TypedLisp

/-- What is listed of a node: its depth, its kind and its leaves. -/
structure Sketch where
  depth : Nat
  kind : NodeKind
  leaves : List String
  deriving Repr, DecidableEq

namespace Node

mutual

/-- The same tree with neither types nor lines. -/
def skeleton : Node → Node
  | ⟨kind, _, _, leaves, children⟩ => ⟨kind, none, 0, leaves, skeletonAll children⟩

def skeletonAll : List Node → List Node
  | [] => []
  | node :: siblings => skeleton node :: skeletonAll siblings

end

section
variable (node : Node)

theorem skeletonAll_eq (nodes : List Node) : skeletonAll nodes = nodes.map skeleton := by
  induction nodes with
  | nil => rfl
  | cons node nodes ih => rw [skeletonAll, ih, List.map_cons]

@[simp] theorem kind_skeleton : node.skeleton.kind = node.kind := by cases node; rfl

@[simp] theorem leaves_skeleton : node.skeleton.leaves = node.leaves := by cases node; rfl

@[simp] theorem children_skeleton : node.skeleton.children = node.children.map skeleton := by
  cases node
  exact skeletonAll_eq _

end

mutual

theorem skeleton_mapLines (change : Nat → Nat) :
    (node : Node) → (node.mapLines change).skeleton = node.skeleton
  | ⟨kind, valueType, line, leaves, children⟩ => by
      rw [mapLines, skeleton, skeleton, skeletonAll_mapLines]

theorem skeletonAll_mapLines (change : Nat → Nat) :
    (nodes : List Node) → skeletonAll (mapLinesAll change nodes) = skeletonAll nodes
  | [] => rfl
  | node :: siblings => by
      rw [mapLinesAll, skeletonAll, skeletonAll, skeleton_mapLines, skeletonAll_mapLines]

end

mutual

theorem lexemes_skeleton : (node : Node) → node.skeleton.lexemes = node.lexemes
  | ⟨kind, valueType, line, leaves, children⟩ => by
      rw [skeleton, lexemes, lexemes, lexemesAll_skeleton]

theorem lexemesAll_skeleton : (nodes : List Node) → lexemesAll (skeletonAll nodes) = lexemesAll nodes
  | [] => rfl
  | node :: siblings => by
      rw [skeletonAll, lexemesAll, lexemesAll, lexemes_skeleton, lexemesAll_skeleton]

end

theorem skeleton_of_unlined {tree other : Node} (same : tree.unlined = other.unlined) :
    tree.skeleton = other.skeleton := by
  have bare := congrArg skeleton same
  rwa [unlined, unlined, skeleton_mapLines, skeleton_mapLines] at bare

/-! ## Listed trees -/

def sketches (entries : List (Nat × Node)) : List Sketch :=
  entries.map fun entry => ⟨entry.1, entry.2.kind, entry.2.leaves⟩

def sketch (tree : Node) : List Sketch :=
  sketches tree.preorder

theorem length_sketch (tree : Node) : tree.sketch.length = tree.size := by
  rw [sketch, sketches, List.length_map, preorder, length_preorderFrom]

theorem sketches_append (first second : List (Nat × Node)) :
    sketches (first ++ second) = sketches first ++ sketches second :=
  List.map_append

theorem sketches_preorderFrom (depth : Nat) (tree : Node) :
    sketches (tree.preorderFrom depth) =
      ⟨depth, tree.kind, tree.leaves⟩ :: sketches (preorderAll (depth + 1) tree.children) := by
  rw [preorderFrom_eq]
  rfl

/-- No entry follows at this depth or below it. -/
def EndsAbove (depth : Nat) (rest : List Sketch) : Prop :=
  ∀ entry ∈ rest.head?, entry.depth < depth

theorem endsAbove_sketches {depth : Nat} {rest : List Sketch} (ends : EndsAbove depth rest)
    (siblings : List Node) :
    EndsAbove (depth + 1) (sketches (preorderAll depth siblings) ++ rest) := by
  cases siblings with
  | nil => exact fun entry first => Nat.lt_succ_of_lt (ends entry first)
  | cons node siblings =>
    rw [preorderAll, sketches_append, sketches_preorderFrom]
    rintro entry ⟨⟩
    exact Nat.lt_succ_self depth

mutual

theorem skeleton_of_sketches {depth : Nat} {rest rest' : List Sketch}
    (ends : EndsAbove (depth + 1) rest) (ends' : EndsAbove (depth + 1) rest') :
    (tree other : Node) →
      sketches (tree.preorderFrom depth) ++ rest = sketches (other.preorderFrom depth) ++ rest' →
      tree.skeleton = other.skeleton ∧ rest = rest'
  | ⟨kind, valueType, line, leaves, children⟩, ⟨kind', valueType', line', leaves', children'⟩, same => by
      rw [sketches_preorderFrom, sketches_preorderFrom, List.cons_append, List.cons_append] at same
      obtain ⟨head, below⟩ := List.cons.inj same
      cases head
      obtain ⟨all, after⟩ := skeletonAll_of_sketches ends ends' children children' below
      rw [skeleton, skeleton, all]
      exact ⟨rfl, after⟩

theorem skeletonAll_of_sketches {depth : Nat} {rest rest' : List Sketch}
    (ends : EndsAbove depth rest) (ends' : EndsAbove depth rest') :
    (nodes others : List Node) →
      sketches (preorderAll depth nodes) ++ rest = sketches (preorderAll depth others) ++ rest' →
      skeletonAll nodes = skeletonAll others ∧ rest = rest'
  | [], [], same => ⟨rfl, same⟩
  -- Where one list is over, the next entry is above its nodes, but the other list goes on at their depth.
  | [], other :: others, same => by
      rw [preorderAll, preorderAll, sketches_append, sketches_preorderFrom] at same
      exact absurd (ends ⟨depth, other.kind, other.leaves⟩ (congrArg List.head? same)) (Nat.lt_irrefl depth)
  | node :: nodes, [], same => by
      rw [preorderAll, preorderAll, sketches_append, sketches_preorderFrom] at same
      exact absurd (ends' ⟨depth, node.kind, node.leaves⟩ (congrArg List.head? same.symm))
        (Nat.lt_irrefl depth)
  | node :: nodes, other :: others, same => by
      rw [preorderAll, preorderAll, sketches_append, sketches_append, List.append_assoc,
        List.append_assoc] at same
      obtain ⟨first, siblings⟩ := skeleton_of_sketches (endsAbove_sketches ends nodes)
        (endsAbove_sketches ends' others) node other same
      obtain ⟨all, after⟩ := skeletonAll_of_sketches ends ends' nodes others siblings
      rw [skeletonAll, skeletonAll, first, all]
      exact ⟨rfl, after⟩

end

/-- The list of a tree determines its skeleton. -/
theorem skeleton_of_sketch {tree other : Node} (same : tree.sketch = other.sketch) :
    tree.skeleton = other.skeleton := by
  have nothing : EndsAbove (0 + 1) [] := fun _ none => nomatch none
  refine (skeleton_of_sketches nothing nothing tree other ?_).1
  rw [List.append_nil, List.append_nil]
  exact same

end Node

end TypedLisp
