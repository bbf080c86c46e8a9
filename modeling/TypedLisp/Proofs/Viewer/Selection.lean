import TypedLisp.Proofs.Graph.Listing
import TypedLisp.Proofs.Viewer.Windows

/-! What the tree pane shows of a tree.

The pane lists the rows of its window, one a line, and puts a background behind the
selected one. What is stated here is about the lines that are handed over to be painted,
of which there are never more than the pane has room for, if it has room for one.
-/

set_option autoImplicit false

namespace TypedLisp

namespace TreeEntry

theorem background_styleOfKind (kind : String) : (styleOfKind kind).background = none := by
  unfold styleOfKind
  split <;> rfl

theorem background_styleOfLeaf (kind : String) : (styleOfLeaf kind).background = none := by
  unfold styleOfLeaf
  split <;> rfl

theorem background_guides (depth : Nat) : ∀ span ∈ guides depth, span.style.background = none := by
  intro span member
  unfold guides at member
  split at member
  case isTrue => cases member
  case isFalse => rw [List.mem_singleton.mp member]; rfl

theorem background_spans (row : TreeEntry) : ∀ span ∈ row.spans, span.style.background = none := by
  refine List.forall_mem_append.mpr ⟨background_guides row.depth,
    List.forall_mem_cons.mpr ⟨background_styleOfKind row.kind, fun span member => ?_⟩⟩
  obtain ⟨leaf, -, rfl⟩ := List.mem_map.mp member
  exact background_styleOfLeaf row.kind

end TreeEntry

namespace TreePane

variable {rows : List TreeEntry} {selected scroll offset visible place height : Nat}

theorem lines_pane (listed : selected < rows.length) (scroll : Nat) (focused : Bool) (height : Nat) :
    (pane rows selected scroll focused height).lines =
      lines rows selected (offsetAfter rows selected scroll height) (Pane.visibleLines height) := by
  rw [pane, if_neg (ne_nil_of_listed listed)]

theorem getElem?_lines (rows : List TreeEntry) (selected offset : Nat) (inside : place < visible) :
    (lines rows selected offset visible)[place]? =
      rows[offset + place]?.map fun row => line selected row (offset + place) := by
  rw [lines, List.getElem?_map, Pane.getElem?_window inside, List.getElem?_zipIdx, Option.map_map,
    Nat.zero_add]
  rfl

theorem length_lines_le (rows : List TreeEntry) (selected offset visible : Nat) :
    (lines rows selected offset visible).length ≤ visible := by
  rw [lines, List.length_map]
  exact Pane.length_window_le ..

theorem map_spans_lines (rows : List TreeEntry) (selected offset visible : Nat) :
    (lines rows selected offset visible).map Line.spans =
      (Pane.window offset visible rows).map TreeEntry.spans := by
  have listed : (Pane.window offset visible rows.zipIdx).map Prod.fst =
      Pane.window offset visible rows := by
    rw [Pane.map_window, List.zipIdx_map_fst]
  rw [← listed, lines, List.map_map, List.map_map]
  rfl

theorem bare_of_mem_lines {line : Line} (member : line ∈ lines rows selected offset visible) :
    ∀ span ∈ line.spans, span.style.background = none := by
  obtain ⟨⟨row, index⟩, -, rfl⟩ := List.mem_map.mp member
  exact row.background_spans

theorem background_lines_iff (shows : Shows offset selected rows.length visible)
    (listed : selected < rows.length) :
    (lines rows selected offset visible)[place]?.bind Line.background = some Theme.selection ↔
      offset + place = selected := by
  by_cases inside : place < visible
  · rw [getElem?_lines rows selected offset inside]
    by_cases same : offset + place = selected
    · rw [same, List.getElem?_eq_getElem listed]
      exact iff_of_true (by simp [line]) rfl
    · refine iff_of_false (fun marked => ?_) same
      cases found : rows[offset + place]? <;> simp [found, line, same] at marked
  · -- Beyond the window there is no line, and the selected row is not there either.
    have short := length_lines_le rows selected offset visible
    rw [List.getElem?_eq_none (by omega), Option.bind_none]
    refine iff_of_false (fun marked => by cases marked) ?_
    have ends := shows.ends
    omega

/-- What a draw on a pane of a height does about a selected row and an offset: the offset that it
leaves, and the lines that it hands over. -/
structure KeepsSelection (rows : List TreeEntry) (selected scroll height offset : Nat)
    (handed : List Line) : Prop where
  left : offsetAfter rows selected scroll height = offset
  shows : Shows offset selected rows.length (Pane.visibleLines height)
  unmoved : Shows scroll selected rows.length (Pane.visibleLines height) → offset = scroll
  /-- In a memory there are so few rows that all is computed in words. -/
  computed : rows.length + height ≤ Viewer.lastPosition →
    Checked.offsetTo scroll selected rows.length (Pane.visibleLines height) = some offset
  drawn : ∀ focused, (pane rows selected scroll focused height).lines = handed
  /-- The rows from the offset on, one after another. -/
  spans : handed.map Line.spans =
    ((rows.drop offset).take (Pane.visibleLines height)).map TreeEntry.spans
  /-- The line of the selected row has a background, and no other line has it. -/
  marked : ∀ place : Nat, handed[place]?.bind Line.background = some Theme.selection ↔
    offset + place = selected
  bare : ∀ line ∈ handed, ∀ span ∈ line.spans, span.style.background = none
  /-- A pane with room for a line has room for all of them. -/
  room : 3 ≤ height → handed.length ≤ height - 2

theorem keepsSelection (listed : selected < rows.length) (within : scroll < rows.length)
    (height : Nat) :
    KeepsSelection rows selected scroll height (offsetAfter rows selected scroll height)
      (lines rows selected (offsetAfter rows selected scroll height) (Pane.visibleLines height)) where
  left := rfl
  shows := offsetAfter_shows listed scroll height
  unmoved := offsetAfter_of_shows listed
  computed few := by
    have room : scroll + Pane.visibleLines height ≤ Viewer.lastPosition := by
      unfold Pane.visibleLines
      omega
    rw [offsetAfter_of_listed listed]
    exact Checked.offsetTo_eq room (by omega)
  drawn focused := lines_pane listed scroll focused height
  spans := map_spans_lines ..
  marked _ := background_lines_iff (offsetAfter_shows listed scroll height) listed
  bare _ := bare_of_mem_lines
  room tall := by
    rw [← Pane.visibleLines_of_tall tall]
    exact length_lines_le ..

end TreePane

/-! ## The viewer -/

namespace Viewer

/-- A draw of the whole screen leaves the offset that the tree pane needs at its height, and has painted
what that pane hands over. -/
structure DrawsTree (terminal : Terminal) (viewer : Viewer) (asked : Screen.Size) : Prop where
  left : ∃ sourceOffset, (viewer.drawOn terminal asked).2 =
    { viewer with
      treeOffset := TreePane.offsetAfter viewer.rows viewer.selected viewer.treeOffset
        (terminal.paneHeight asked)
      sourceOffset }
  painted : ∃ source status, (viewer.drawOn terminal asked).1 = terminal.paint asked
    ⟨TreePane.pane viewer.rows viewer.selected viewer.treeOffset (viewer.focus == .tree)
      (terminal.paneHeight asked), source, status⟩

/-- After every run, whatever the size of the next draw, the selected row stays on the screen. -/
theorem selection_stays_on_screen {terminal : Terminal} {viewer : Viewer}
    (reachable : viewer.Reachable terminal) (listed : viewer.rows ≠ []) :
    (∀ height, ∃ offset handed,
      TreePane.KeepsSelection viewer.rows viewer.selected viewer.treeOffset height offset handed) ∧
    ∀ asked, viewer.DrawsTree terminal asked :=
  ⟨fun height => ⟨_, _, TreePane.keepsSelection (reachable.selected_lt listed)
      (reachable.treeOffset_lt listed) height⟩,
    fun _ => ⟨⟨_, rfl⟩, ⟨_, _, rfl⟩⟩⟩

def twoVertices : Graph where
  vertices := [⟨"a", "A"⟩, ⟨"b", "B"⟩]
  edges := [⟨"a", "b"⟩]

theorem ofGraph_twoVertices : TreeEntry.ofGraph twoVertices = [⟨0, "A", []⟩, ⟨1, "B", []⟩] := by
  have child : Graph.Lists twoVertices 1 "b" [⟨1, "b", "B"⟩] := .row .nil
  have lists : Graph.Lists twoVertices 0 "a" [⟨0, "a", "A"⟩, ⟨1, "b", "B"⟩] :=
    .row (.cons child .nil)
  rw [TreeEntry.ofGraph, Graph.outline_of_lists rfl lists (by decide)]
  decide +kernel

theorem length_rows_twoVertices (terminal : Terminal) (source : String) (actions : List Action) :
    ((start twoVertices source).after terminal actions).rows.length = 2 := by
  rw [((fits_start twoVertices source).after terminal actions).rows, ofGraph_twoVertices]
  rfl

-- The size is small enough to be had as asked for, and the last of its lines is the status line.
theorem paneHeight_standard : Terminal.standard.paneHeight ⟨40, 4⟩ = 3 :=
  congrArg (·.height - 1) (Screen.Size.available_of_cells_le (by decide))

/-- The second of two rows is selected, then the screen has room for one. -/
theorem selection_stays_on_screen_twoVertices :
    ∃ viewer : Viewer,
      viewer = (start twoVertices "").after .standard [.draw ⟨40, 9⟩, .press .last] ∧
      viewer.Reachable .standard ∧ viewer.rows ≠ [] ∧ viewer.selected = 1 ∧
      (viewer.drawOn .standard ⟨40, 4⟩).2.treeOffset = 1 := by
  refine ⟨_, rfl, ?_⟩
  generalize reached :
    (start twoVertices "").after .standard [.draw ⟨40, 9⟩, .press .last] = viewer
  have reachable : viewer.Reachable .standard := ⟨twoVertices, "", _, reached.symm⟩
  have length : viewer.rows.length = 2 := by rw [← reached, length_rows_twoVertices]
  have selected : viewer.selected = 1 := by
    rw [← reached]
    show min (shifted 0 farOn) ((TreeEntry.ofGraph twoVertices).length - 1) = 1
    rw [ofGraph_twoVertices]
    decide
  have listed : viewer.rows ≠ [] := List.ne_nil_of_length_pos (by omega)
  obtain ⟨keeps, draws⟩ := selection_stays_on_screen reachable listed
  obtain ⟨sourceOffset, left⟩ := (draws ⟨40, 4⟩).left
  rw [paneHeight_standard] at left
  obtain ⟨offset, handed, kept⟩ := keeps 3
  have shows := kept.shows
  rw [selected, length] at shows
  refine ⟨reachable, listed, selected, ?_⟩
  rw [left]
  refine kept.left.trans ?_
  exact Nat.le_antisymm shows.begins (Nat.le_of_lt_succ shows.ends)

end Viewer

end TypedLisp
