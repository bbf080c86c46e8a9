import TypedLisp.Proofs.Graph.Acyclic
import TypedLisp.Proofs.Graph.Printing
import TypedLisp.Viewer

/-! Rows as they are printed and as they are shown.

A printed line has the label with spaces in place of its newlines. The viewer splits
the label at the newlines, and shows the pieces with a space before each but the
first. Both put a unit for each level before that, so the texts differ in the units
and in nothing else.
-/

set_option autoImplicit false

namespace TypedLisp

namespace Text

variable {separator : Char}

theorem intercalate_cons (piece : List Char) (pieces : List (List Char)) :
    [separator].intercalate (piece :: pieces) = piece ++ pieces.flatMap (separator :: ·) := by
  induction pieces generalizing piece with
  | nil => simp
  | cons next pieces ih =>
    rw [List.intercalate_cons_cons, ih, List.flatMap_cons, List.append_assoc]
    rfl

theorem exists_pieces (separator : Char) (text : List Char) :
    ∃ piece pieces, split separator text = piece :: pieces ∧
      text = piece ++ pieces.flatMap (separator :: ·) ∧
      separator ∉ piece ∧ ∀ other ∈ pieces, separator ∉ other := by
  obtain ⟨piece, pieces, same⟩ := List.exists_cons_of_ne_nil (split_ne_nil separator text)
  have whole := intercalate_split separator text
  have plain := not_mem_of_mem_split separator text
  rw [same, intercalate_cons] at whole
  rw [same, List.forall_mem_cons] at plain
  exact ⟨piece, pieces, same, whole.symm, plain⟩

end Text

/-- A text behind a unit for each level. -/
def indentedBy (unit : String) (levels : Nat) (text : String) : String :=
  String.join (List.replicate levels unit) ++ text

namespace OutlineLine

def flatLabel (row : OutlineLine) : String :=
  row.label.map fun character => if character = '\n' then ' ' else character

theorem indented_eq (row : OutlineLine) : row.indented = indentedBy "  " row.depth row.flatLabel := rfl

theorem flatMap_guides (depth : Nat) :
    (TreeEntry.guides depth).flatMap (fun span => span.text.toList) =
      (List.replicate depth "│ ").flatMap String.toList := by
  cases depth with
  | zero => rfl
  | succ depth =>
    rw [TreeEntry.guides, if_neg (Nat.succ_ne_zero depth), List.flatMap_singleton, String.toList_join]

/-- The viewer shows the pieces of a label as the label on one line. -/
theorem lineText_spans (row : OutlineLine) :
    lineText (TreeEntry.ofOutline row).spans = indentedBy "│ " row.depth row.flatLabel := by
  obtain ⟨kind, leaves, pieces, label, plain, plains⟩ := Text.exists_pieces '\n' row.label.toList
  have flat : row.flatLabel.toList = kind ++ leaves.flatMap (' ' :: ·) := by
    rw [flatLabel, String.toList_map, label, List.map_append, Graph.map_unbroken plain,
      Graph.map_flatMap_unbroken plains]
  have entry : TreeEntry.ofOutline row =
      ⟨row.depth, String.ofList kind, leaves.map String.ofList⟩ := by
    rw [TreeEntry.ofOutline, labelLines, pieces]
    rfl
  have space : " ".toList = [' '] := rfl
  rw [entry, ← String.toList_inj, indentedBy, String.toList_append, flat]
  simp [lineText, TreeEntry.spans, String.toList_join, List.flatMap_map, flatMap_guides, space]

theorem unbroken_indented (row : OutlineLine) : '\n' ∉ row.indented.toList := by
  rw [indented_eq, indentedBy, String.toList_append, Sketch.toList_indentation, flatLabel,
    String.toList_map, List.mem_append, not_or]
  refine ⟨by simp, fun member => ?_⟩
  obtain ⟨character, -, same⟩ := List.mem_map.mp member
  split at same
  · cases same
  next other => exact other same

end OutlineLine

namespace Graph

theorem split_outlineText (graph : Graph) :
    Text.split '\n' graph.outlineText.toList =
      graph.outline.map (fun row => row.indented.toList) ++ [[]] := by
  have text : graph.outlineText.toList =
      (graph.outline.map fun row => row.indented.toList).flatMap (· ++ ['\n']) := by
    rw [outlineText, String.toList_join, List.flatMap_map, List.flatMap_map]
    simp only [String.toList_append]
    rfl
  rw [text]
  refine Text.split_flatMap_append fun line member => ?_
  obtain ⟨row, -, rfl⟩ := List.mem_map.mp member
  exact row.unbroken_indented

theorem walks_outline {graph : Graph}
    (acyclic : ∀ root, graph.root? = some root → graph.AcyclicFrom root) :
    graph.index.Walks graph.outline.length ⟨[], graph.root?.toList.map (·, 0)⟩ ⟨graph.outline, []⟩ := by
  cases rooted : graph.root? with
  | none =>
    have rootless : graph.outline = [] := by simp only [outline, rooted]
    rw [rootless]
    exact .finished rfl
  | some root => exact walks_of_lists (lists_outline rooted (acyclic root rooted))

/-- The rows that a walk over the graph lists are printed a line each and shown an entry each. The
texts are the same but for the unit of indentation. -/
theorem listings_match (graph : Graph) (source : String)
    (acyclic : ∀ root, graph.root? = some root → graph.AcyclicFrom root) :
    ∃ rows, graph.index.Walks rows.length ⟨[], graph.root?.toList.map (·, 0)⟩ ⟨rows, []⟩ ∧
      Text.split '\n' graph.outlineText.toList = rows.map (fun row => row.indented.toList) ++ [[]] ∧
      (Viewer.start graph source).rows.length = rows.length ∧
      ∀ (index : Nat) row, rows[index]? = some row →
        ∃ entry text, (Viewer.start graph source).rows[index]? = some entry ∧
          row.indented = indentedBy "  " row.depth text ∧
          lineText entry.spans = indentedBy "│ " row.depth text := by
  refine ⟨graph.outline, walks_outline acyclic, split_outlineText graph, List.length_map _, ?_⟩
  intro index row listed
  have entry : (Viewer.start graph source).rows[index]? = some (TreeEntry.ofOutline row) := by
    rw [Viewer.start, TreeEntry.ofGraph, List.getElem?_map, listed]
    rfl
  exact ⟨_, row.flatLabel, entry, row.indented_eq, row.lineText_spans⟩

/-- Labels with empty lines, and with spaces where the indentation ends. -/
def brokenLabels : Graph where
  vertices := [⟨"a", "\n\nA"⟩, ⟨"b", " \n"⟩]
  edges := [⟨"a", "b"⟩, ⟨"a", "b"⟩]

theorem listings_match_brokenLabels :
    (∀ root, brokenLabels.root? = some root → brokenLabels.AcyclicFrom root) ∧
      ∃ entry, (Viewer.start brokenLabels "").rows[2]? = some entry ∧ lineText entry.spans = "│   " := by
  have acyclic : ∀ root, brokenLabels.root? = some root → brokenLabels.AcyclicFrom root := by
    rintro root rooted
    cases Option.some.inj rooted
    exact acyclicFrom_of_ordered ["a", "b"] (by decide) (by decide)
  obtain ⟨rows, walks, -, -, each⟩ := listings_match brokenLabels "" acyclic
  have leaf : Lists brokenLabels 1 "b" [⟨1, "b", " \n"⟩] := .row .nil
  have listed : Lists brokenLabels 0 "a" [⟨0, "a", "\n\nA"⟩, ⟨1, "b", " \n"⟩, ⟨1, "b", " \n"⟩] :=
    .row (.cons leaf (.cons leaf .nil))
  have outline : rows = _ := congrArg Walk.rows (walks.unique (walks_of_lists listed)).2
  obtain ⟨entry, text, found, printed, shown⟩ := each 2 ⟨1, "b", " \n"⟩ (by rw [outline]; rfl)
  have line : OutlineLine.indented ⟨1, "b", " \n"⟩ = "  " ++ "  " := by decide +kernel
  have unit : indentedBy "  " 1 text = "  " ++ text := rfl
  have rest : text = "  " := (String.append_right_inj "  ").mp (unit.symm.trans (printed.symm.trans line))
  exact ⟨acyclic, entry, found, by rw [shown, rest]; rfl⟩

end Graph

end TypedLisp
