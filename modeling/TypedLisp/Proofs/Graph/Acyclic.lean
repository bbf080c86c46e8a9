import Mathlib.Data.List.Perm.Subperm
import Mathlib.Logic.Relation
import TypedLisp.Proofs.Graph.Listing

/-! Outlines of graphs without a cycle below the root.

Nothing else is asked of the graph: identities may be those of several vertices or
of none, edges may be repeated, and paths may meet again. No path from the root
passes an identity twice, and each step of it leaves one that an edge leads from. So
no path is longer than the list of edges, which is as deep as the outline goes.
-/

set_option autoImplicit false

namespace TypedLisp.Graph

open Relation

def Leads (graph : Graph) (parent child : String) : Prop :=
  ⟨parent, child⟩ ∈ graph.edges

/-- Nothing that edges lead to from here is led back to itself. -/
def AcyclicFrom (graph : Graph) (start : String) : Prop :=
  ∀ identity, ReflTransGen graph.Leads start identity → ¬TransGen graph.Leads identity identity

variable {graph : Graph} {start identity child : String} {above : List String}

theorem leads_of_mem_children (member : child ∈ graph.children identity) :
    graph.Leads identity child := by
  obtain ⟨edge, leaves, rfl⟩ := List.mem_map.mp member
  obtain ⟨member, same⟩ := List.mem_filter.mp leaves
  rw [← eq_of_beq same]
  exact member

/-! ## Paths from the start -/

/-- A path to an identity, with those that it passes before, the nearest first. -/
inductive Trail (graph : Graph) (start : String) : List String → String → Prop where
  | start : Trail graph start [] start
  | step {above : List String} {identity child : String} :
      Trail graph start above identity → graph.Leads identity child →
      Trail graph start (identity :: above) child

theorem Trail.reaches (trail : Trail graph start above identity) :
    ReflTransGen graph.Leads start identity := by
  induction trail with
  | start => exact .refl
  | step _ leads reaches => exact reaches.tail leads

theorem Trail.leads_on (trail : Trail graph start above identity) :
    ∀ passed ∈ above, TransGen graph.Leads passed identity := by
  induction trail with
  | start => exact List.forall_mem_nil _
  | step _ leads leads_on =>
    refine List.forall_mem_cons.mpr ⟨.single leads, fun passed member => ?_⟩
    exact (leads_on passed member).tail leads

theorem Trail.nodup (trail : Trail graph start above identity) (acyclic : graph.AcyclicFrom start) :
    above.Nodup := by
  induction trail with
  | start => exact List.nodup_nil
  | step trail _ nodup =>
    refine List.nodup_cons.mpr ⟨fun passed => ?_, nodup⟩
    exact acyclic _ trail.reaches (trail.leads_on _ passed)

theorem Trail.subset_parents (trail : Trail graph start above identity) :
    above ⊆ graph.edges.map Edge.parent := by
  induction trail with
  | start => exact List.nil_subset _
  | step _ leads subset => exact List.cons_subset.mpr ⟨List.mem_map_of_mem leads, subset⟩

theorem Trail.length_le (trail : Trail graph start above identity)
    (acyclic : graph.AcyclicFrom start) : above.length ≤ graph.edges.length := by
  have shorter := (List.Nodup.subperm (trail.nodup acyclic) trail.subset_parents).length_le
  rwa [List.length_map] at shorter

/-! ## Rows -/

theorem exists_listsAll {depth : Nat} {siblings : List String} {property : OutlineLine → Prop}
    (each : ∀ identity ∈ siblings, ∃ rows,
      Lists graph depth identity rows ∧ ∀ row ∈ rows, property row) :
    ∃ rows, ListsAll graph depth siblings rows ∧ ∀ row ∈ rows, property row := by
  induction siblings with
  | nil => exact ⟨[], .nil, List.forall_mem_nil _⟩
  | cons identity siblings ih =>
    obtain ⟨each, others⟩ := List.forall_mem_cons.mp each
    obtain ⟨rows, lists, holds⟩ := each
    obtain ⟨others, listsAll, hold⟩ := ih others
    exact ⟨rows ++ others, .cons lists listsAll, List.forall_mem_append.mpr ⟨holds, hold⟩⟩

/-- The rows below a path are finitely many, since each path that goes on from it is longer. -/
theorem Trail.lists (acyclic : graph.AcyclicFrom start) {above : List String} {identity : String}
    (trail : Trail graph start above identity) :
    ∃ rows, Lists graph above.length identity rows ∧
      ∀ row ∈ rows, row.depth ≤ graph.edges.length := by
  have each : ∀ child ∈ graph.children identity, ∃ rows,
      Lists graph (above.length + 1) child rows ∧ ∀ row ∈ rows, row.depth ≤ graph.edges.length :=
    fun child member =>
      have longer : Trail graph start (identity :: above) child :=
        trail.step (leads_of_mem_children member)
      -- The path has room for one identity more, which is what ends the recursion.
      have bound : above.length < graph.edges.length := longer.length_le acyclic
      longer.lists acyclic
  obtain ⟨below, lists, shallow⟩ := exists_listsAll each
  exact ⟨_, .row lists, List.forall_mem_cons.mpr ⟨trail.length_le acyclic, shallow⟩⟩
termination_by graph.edges.length - above.length

theorem lists_outline {root : String} (rooted : graph.root? = some root)
    (acyclic : graph.AcyclicFrom root) : Lists graph 0 root graph.outline := by
  obtain ⟨rows, lists, shallow⟩ := Trail.start.lists acyclic
  rwa [outline_of_lists rooted lists shallow]

theorem Lists.unique {root : String} {rows rows' : List OutlineLine} (lists : Lists graph 0 root rows)
    (lists' : Lists graph 0 root rows') : rows = rows' :=
  congrArg Walk.rows ((walks_of_lists lists).unique (walks_of_lists lists')).2

/-- The outline is the listing from the root, a row for each path, and the walk ends with it, however
the paths of the graph meet. Without a vertex there is neither. -/
theorem outline_of_acyclic (graph : Graph)
    (acyclic : ∀ root, graph.root? = some root → graph.AcyclicFrom root) :
    (∀ root, graph.root? = some root →
      (∀ rows, Lists graph 0 root rows ↔ rows = graph.outline) ∧
      graph.index.Walks graph.outline.length ⟨[], [(root, 0)]⟩ ⟨graph.outline, []⟩) ∧
    (graph.root? = none → graph.outline = []) := by
  refine ⟨fun root rooted => ?_, fun rootless => by simp only [outline, rootless]⟩
  have listed := lists_outline rooted (acyclic root rooted)
  refine ⟨fun rows => ⟨fun lists => lists.unique listed, ?_⟩, walks_of_lists listed⟩
  rintro rfl
  exact listed

theorem acyclicFrom_of_ordered (order : List String) (begins : start ∈ order)
    (ordered : ∀ edge ∈ graph.edges, edge.parent ∈ order →
      edge.child ∈ order ∧ order.idxOf edge.parent < order.idxOf edge.child) :
    graph.AcyclicFrom start := by
  have within {identity : String} (reaches : ReflTransGen graph.Leads start identity) :
      identity ∈ order := by
    induction reaches with
    | refl => exact begins
    | tail _ leads listed => exact (ordered _ leads listed).1
  have later {first last : String} (listed : first ∈ order) (leads : TransGen graph.Leads first last) :
      last ∈ order ∧ order.idxOf first < order.idxOf last := by
    induction leads with
    | single leads => exact ordered _ leads listed
    | tail _ leads ih =>
      obtain ⟨listed, before⟩ := ih
      obtain ⟨listed, after⟩ := ordered _ leads listed
      exact ⟨listed, Nat.lt_trans before after⟩
  exact fun identity reaches cycle => Nat.lt_irrefl _ (later (within reaches) cycle).2

/-- An identity of two vertices and one of none, an edge made twice, and a cycle apart from the root. -/
def meetingPaths : Graph where
  vertices := [⟨"a", "A"⟩, ⟨"b", "B"⟩, ⟨"d", "D"⟩, ⟨"b", "last"⟩]
  edges := [⟨"a", "b"⟩, ⟨"d", "d"⟩, ⟨"a", "b"⟩, ⟨"b", "c"⟩, ⟨"a", "c"⟩]

theorem outline_of_acyclic_meetingPaths :
    (∀ root, meetingPaths.root? = some root → meetingPaths.AcyclicFrom root) ∧
      meetingPaths.outline = [⟨0, "a", "A"⟩, ⟨1, "b", "last"⟩, ⟨2, "c", "c"⟩, ⟨1, "b", "last"⟩,
        ⟨2, "c", "c"⟩, ⟨1, "c", "c"⟩] ∧
      meetingPaths.index.Walks 6 ⟨[], [("a", 0)]⟩ ⟨meetingPaths.outline, []⟩ := by
  have acyclic : ∀ root, meetingPaths.root? = some root → meetingPaths.AcyclicFrom root := by
    rintro root rooted
    cases Option.some.inj rooted
    exact acyclicFrom_of_ordered ["a", "b", "c"] (by decide) (by decide)
  obtain ⟨listed, walks⟩ := (outline_of_acyclic meetingPaths acyclic).1 "a" rfl
  have leaf (depth : Nat) : Lists meetingPaths depth "c" [⟨depth, "c", "c"⟩] := .row .nil
  have shared (depth : Nat) :
      Lists meetingPaths depth "b" [⟨depth, "b", "last"⟩, ⟨depth + 1, "c", "c"⟩] :=
    .row (.cons (leaf (depth + 1)) .nil)
  have rows : Lists meetingPaths 0 "a" [⟨0, "a", "A"⟩, ⟨1, "b", "last"⟩, ⟨2, "c", "c"⟩,
      ⟨1, "b", "last"⟩, ⟨2, "c", "c"⟩, ⟨1, "c", "c"⟩] :=
    .row (.cons (shared 1) (.cons (shared 1) (.cons (leaf 1) .nil)))
  have outline := ((listed _).mp rows).symm
  have length : meetingPaths.outline.length = 6 := by rw [outline]; rfl
  rw [length] at walks
  exact ⟨acyclic, outline, walks⟩

end TypedLisp.Graph
