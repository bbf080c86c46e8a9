import TypedLisp.Graph.Outline

/-! The outline as a walk over the two tables of a graph.

What is to be listed stands on a stack. The identity on top is listed, and its
children take its place, the first of them on top. Wherever the rows of an identity
are finite, the walk lists them before all that stood below it, and so does the
recursion that the outline is made by, if it goes deep enough.
-/

set_option autoImplicit false

namespace TypedLisp.Graph

/-- A walk under way: the rows listed, and a stack of identities with their depths. -/
structure Walk where
  rows : List OutlineLine
  stack : List (String × Nat)

namespace Index

variable (index : Index)

/-- Lists the identity on top of the stack. Without one the walk is over. -/
def step : Walk → Option Walk
  | ⟨_, []⟩ => none
  | ⟨rows, (identity, depth) :: rest⟩ =>
      let children := index.children.getD identity []
      some ⟨rows ++ [⟨depth, identity, index.labels.getD identity identity⟩],
        children.map (·, depth + 1) ++ rest⟩

/-- A walk that is over after exactly this many steps. -/
inductive Walks : Nat → Walk → Walk → Prop
  | finished {walk : Walk} : index.step walk = none → Walks 0 walk walk
  | next {steps : Nat} {walk next final : Walk} : index.step walk = some next →
      Walks steps next final → Walks (steps + 1) walk final

variable {index}

theorem Walks.unique {steps steps' : Nat} {walk final final' : Walk}
    (walks : index.Walks steps walk final) (walks' : index.Walks steps' walk final') :
    steps = steps' ∧ final = final' := by
  induction walks generalizing steps' with
  | finished ended =>
    cases walks' with
    | finished => exact ⟨rfl, rfl⟩
    | next more => cases ended.symm.trans more
  | next more _ ih =>
    cases walks' with
    | finished ended => cases ended.symm.trans more
    | next more' walks' =>
      cases more.symm.trans more'
      obtain ⟨rfl, rfl⟩ := ih walks'
      exact ⟨rfl, rfl⟩

end Index

variable {graph : Graph}

theorem step_cons (rows : List OutlineLine) (identity : String) (depth : Nat)
    (rest : List (String × Nat)) :
    graph.index.step ⟨rows, (identity, depth) :: rest⟩ =
      some ⟨rows ++ [⟨depth, identity, graph.shownLabel identity⟩],
        (graph.children identity).map (·, depth + 1) ++ rest⟩ := by
  rw [Index.step, index_labels, index_children]

mutual

/-- The identity on top is listed with all below it, then the walk goes on with the rest. -/
theorem Lists.walks {depth steps : Nat} {identity : String} {before rows : List OutlineLine}
    {rest : List (String × Nat)} {final : Walk} :
    Lists graph depth identity rows → graph.index.Walks steps ⟨before ++ rows, rest⟩ final →
      graph.index.Walks (rows.length + steps) ⟨before, (identity, depth) :: rest⟩ final
  | .row below, walks => by
      rw [List.append_cons] at walks
      rw [List.length_cons, Nat.add_right_comm]
      exact .next (step_cons before identity depth rest) (below.walks walks)

theorem ListsAll.walks {depth steps : Nat} {siblings : List String} {before rows : List OutlineLine}
    {rest : List (String × Nat)} {final : Walk} :
    ListsAll graph depth siblings rows → graph.index.Walks steps ⟨before ++ rows, rest⟩ final →
      graph.index.Walks (rows.length + steps) ⟨before, siblings.map (·, depth) ++ rest⟩ final
  | .nil, walks => by
      rw [List.append_nil] at walks
      rwa [List.length_nil, Nat.zero_add]
  | .cons first others, walks => by
      rw [← List.append_assoc] at walks
      rw [List.length_append, Nat.add_assoc]
      exact first.walks (others.walks walks)

end

mutual

/-- The recursion lists the rows of an identity, if none of them is too deep for it. -/
theorem Lists.outlineFrom_eq {depth levels : Nat} {identity : String} {rows : List OutlineLine} :
    Lists graph depth identity rows → (∀ row ∈ rows, row.depth < depth + levels) →
      graph.index.outlineFrom levels depth identity = rows
  | @Lists.row _ _ _ rows below, shallow => by
      obtain ⟨here, deeper⟩ := List.forall_mem_cons.mp shallow
      cases levels with
      | zero => exact absurd here (Nat.lt_irrefl depth)
      | succ levels =>
        have shallow : ∀ row ∈ rows, row.depth < depth + 1 + levels := fun row member => by
          have bound := deeper row member
          omega
        rw [Index.outlineFrom, index_labels, index_children, below.flatMap_eq shallow]

theorem ListsAll.flatMap_eq {depth levels : Nat} {siblings : List String} {rows : List OutlineLine} :
    ListsAll graph depth siblings rows → (∀ row ∈ rows, row.depth < depth + levels) →
      siblings.flatMap (graph.index.outlineFrom levels depth) = rows
  | .nil, _ => rfl
  | .cons first others, shallow => by
      obtain ⟨own, rest⟩ := List.forall_mem_append.mp shallow
      rw [List.flatMap_cons, first.outlineFrom_eq own, others.flatMap_eq rest]

end

theorem outline_of_lists {root : String} {rows : List OutlineLine} (rooted : graph.root? = some root)
    (lists : Lists graph 0 root rows) (shallow : ∀ row ∈ rows, row.depth ≤ graph.edges.length) :
    graph.outline = rows := by
  have within : ∀ row ∈ rows, row.depth < 0 + (graph.edges.length + 1) := fun row member => by
    have bound := shallow row member
    omega
  simp only [outline, rooted, lists.outlineFrom_eq within]

theorem walks_of_lists {root : String} {rows : List OutlineLine} (lists : Lists graph 0 root rows) :
    graph.index.Walks rows.length ⟨[], [(root, 0)]⟩ ⟨rows, []⟩ := by
  have ended : graph.index.Walks 0 ⟨[] ++ rows, []⟩ ⟨rows, []⟩ := .finished rfl
  exact lists.walks ended

end TypedLisp.Graph
