import TypedLisp.Proofs.Viewer.Selection

/-! Moves to the first and to the last position.

Both are moves by as far as a signed word of 64 bits reaches, cut at the ends of the
unsigned words. Rows and lines that a memory holds are fewer than half the words, so
one such move leads past all of them. But keys alone can take the offset of the source
on by two moves, as only draws hold it to the lines that there are, and from there one
move back is too short.
-/

set_option autoImplicit false

namespace TypedLisp.Viewer

/-- How far one move leads: half of the words. -/
def reach : Nat := 0x8000000000000000

theorem reach_pos : 0 < reach := by decide

theorem shifted_farBack_eq_zero_iff (position : Nat) :
    shifted position farBack = 0 ↔ position ≤ reach := by
  simp only [shifted, farBack, Decimal.signed64, lastPosition, reach]
  omega

theorem le_shifted_farOn (position : Nat) {last : Nat} (few : last < reach) :
    last ≤ shifted position farOn := by
  unfold reach at few
  simp only [shifted, farOn, Decimal.signed64, lastPosition]
  omega

theorem boundedOffset_farOn (position : Nat) {total visible : Nat} (few : total ≤ reach)
    (positive : 0 < visible) :
    Pane.boundedOffset (shifted position farOn) total visible = total - visible := by
  unfold Pane.boundedOffset
  split
  case isTrue more => exact Nat.min_eq_right (le_shifted_farOn position (by omega))
  case isFalse fewer => exact (Nat.sub_eq_zero_of_le (Nat.le_of_not_lt fewer)).symm

/-- What the keys of a pane move: the selection in the tree, the offset in the source. -/
def position (viewer : Viewer) : Nat :=
  match viewer.focus with
  | .tree => viewer.selected
  | .source => viewer.sourceOffset

section
variable {terminal : Terminal} {viewer : Viewer}

theorem Reachable.act (reachable : viewer.Reachable terminal) (action : Action) :
    (viewer.act terminal action).Reachable terminal := by
  obtain ⟨graph, source, actions, rfl⟩ := reachable
  exact ⟨graph, source, actions ++ [action], by rw [after, after, List.foldl_append]; rfl⟩

theorem position_press_first_of_tree (focused : viewer.focus = .tree) :
    (viewer.press .first).position =
      min (shifted viewer.selected farBack) (viewer.rows.length - 1) := by
  rw [press, move_of_tree focused, position]
  simp only [select, focused]

theorem position_press_first_of_source (focused : viewer.focus = .source) :
    (viewer.press .first).position = shifted viewer.sourceOffset farBack := by
  rw [press, move_of_source focused, position]
  simp only [focused]

theorem Reachable.selected_le (reachable : viewer.Reachable terminal) (few : viewer.rows.length ≤ reach) :
    viewer.selected ≤ reach := by
  obtain ⟨_, _, _, fits⟩ := reachable.fits
  obtain listed | ⟨-, first⟩ := fits.selected <;> omega

theorem Reachable.first_of_tree (reachable : viewer.Reachable terminal) (few : viewer.rows.length ≤ reach)
    (focused : viewer.focus = .tree) : (viewer.press .first).position = 0 := by
  rw [position_press_first_of_tree focused,
    (shifted_farBack_eq_zero_iff _).mpr (reachable.selected_le few), Nat.zero_min]

theorem sourceOffset_drawOn_le (viewer : Viewer) (asked : Screen.Size) :
    (viewer.drawOn terminal asked).2.sourceOffset ≤ (SourcePane.sourceLines viewer.source).length :=
  Nat.le_trans (Pane.boundedOffset_le ..) (Nat.sub_le ..)

end

structure ReachesEnds (terminal : Terminal) (viewer : Viewer) : Prop where
  first : (viewer.press .first).position = 0 ↔ viewer.position ≤ reach
  firstOfTree : viewer.focus = .tree → (viewer.press .first).position = 0
  firstOfDrawn : ∀ asked, ((viewer.drawOn terminal asked).2.press .first).position = 0
  lastRow : viewer.focus = .tree → ∀ asked,
    ((viewer.press .last).drawOn terminal asked).2.selected = viewer.rows.length - 1 ∧
      (viewer.rows ≠ [] →
        TreePane.Shows ((viewer.press .last).drawOn terminal asked).2.treeOffset (viewer.rows.length - 1)
          viewer.rows.length (Pane.visibleLines (terminal.paneHeight asked)))
  lastPage : viewer.focus = .source → ∀ asked,
    ((viewer.press .last).drawOn terminal asked).2.sourceOffset =
      (SourcePane.sourceLines viewer.source).length - Pane.visibleLines (terminal.paneHeight asked)

/-- After every run the last key and a draw lead to the last row, or to the last page of the source.
The first key leads to the first position, unless keys have taken the source further than half the
words since the last draw. No memory holds more rows or lines than are allowed for here. -/
theorem ends_reached {terminal : Terminal} {viewer : Viewer} (reachable : viewer.Reachable terminal)
    (rows : viewer.rows.length ≤ reach)
    (lines : (SourcePane.sourceLines viewer.source).length ≤ reach) : viewer.ReachesEnds terminal where
  first := by
    cases focused : viewer.focus with
    | tree =>
      -- In the tree both sides hold, as a selection is never further than the rows.
      refine iff_of_true (reachable.first_of_tree rows focused) ?_
      rw [position, focused]
      exact reachable.selected_le rows
    | source =>
      rw [position_press_first_of_source focused, shifted_farBack_eq_zero_iff, position, focused]
  firstOfTree := reachable.first_of_tree rows
  firstOfDrawn asked := by
    have drawn : (viewer.drawOn terminal asked).2.Reachable terminal := reachable.act (.draw asked)
    cases focused : viewer.focus with
    | tree => exact drawn.first_of_tree rows focused
    | source =>
      have focused : (viewer.drawOn terminal asked).2.focus = .source := focused
      rw [position_press_first_of_source focused, shifted_farBack_eq_zero_iff]
      exact Nat.le_trans (viewer.sourceOffset_drawOn_le asked) lines
  lastRow focused asked := by
    have positive := reach_pos
    have selected : (viewer.press .last).selected = viewer.rows.length - 1 := by
      rw [press, move_of_tree focused]
      exact Nat.min_eq_right (le_shifted_farOn _ (by omega))
    have kept : (viewer.press .last).rows = viewer.rows := by
      rw [press, move_of_tree focused, select]
    refine ⟨selected, fun listed => ?_⟩
    have last : viewer.rows.length - 1 < viewer.rows.length :=
      Nat.sub_one_lt (Nat.ne_of_gt (List.length_pos_iff.mpr listed))
    have shows := TreePane.offsetAfter_shows last (viewer.press .last).treeOffset
      (terminal.paneHeight asked)
    rwa [← selected, ← kept] at shows ⊢
  lastPage focused asked := by
    have moved : viewer.press .last =
        { viewer with sourceOffset := shifted viewer.sourceOffset farOn } := by
      rw [press, move_of_source focused]
    rw [moved]
    exact boundedOffset_farOn _ lines (Pane.visibleLines_pos _)

theorem ends_reached_twoVertices :
    ∃ viewer : Viewer,
      viewer = (start twoVertices "a\nb\nc").after .standard [.press .tab, .press .pageDown] ∧
      viewer.Reachable .standard ∧ viewer.rows.length ≤ reach ∧
      (SourcePane.sourceLines viewer.source).length ≤ reach ∧ viewer.position = 10 ∧
      (viewer.press .first).position = 0 ∧
      ((viewer.press .last).drawOn .standard ⟨40, 4⟩).2.sourceOffset = 2 := by
  refine ⟨_, rfl, ?_⟩
  generalize reached :
    (start twoVertices "a\nb\nc").after .standard [.press .tab, .press .pageDown] = viewer
  have reachable : viewer.Reachable .standard := ⟨twoVertices, "a\nb\nc", _, reached.symm⟩
  have lines : (SourcePane.sourceLines viewer.source).length = 3 := by
    rw [← reached]
    decide +kernel
  have focused : viewer.focus = .source := by rw [← reached]; rfl
  have position : viewer.position = 10 := by rw [← reached]; rfl
  have few : viewer.rows.length ≤ reach := by
    rw [← reached, length_rows_twoVertices]
    decide
  have few' : (SourcePane.sourceLines viewer.source).length ≤ reach := by
    rw [lines]
    decide
  have ends := ends_reached reachable few few'
  have page := ends.lastPage focused ⟨40, 4⟩
  rw [paneHeight_standard, lines] at page
  exact ⟨reachable, few, few', position, ends.first.mpr (by rw [position]; decide), page⟩

/-- Two moves to the last position take the source further than one move to the first leads back. -/
theorem first_falls_short :
    ((start twoVertices "a\nb\nc").after .standard
        [.press .tab, .press .last, .press .last]).focus = .source ∧
      (((start twoVertices "a\nb\nc").after .standard
        [.press .tab, .press .last, .press .last]).press .first).position = 0x7ffffffffffffffe :=
  ⟨rfl, rfl⟩

end TypedLisp.Viewer
