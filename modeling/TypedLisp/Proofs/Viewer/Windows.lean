import TypedLisp.Proofs.Viewer.Runs

/-! Where a draw leaves the window on the rows of a tree.

The window first follows the selection and is then kept from leaving a blank below
the last row. The second never hides the row that the first has reached, since the
selected row is not below the last one either. So every offset is brought to a place
where both hold, and an offset at such a place is left alone.

Offsets are words of 64 bits. The rows of a tree are far fewer than there are words,
and no offset that a run can leave lies beyond them.
-/

set_option autoImplicit false

namespace TypedLisp

theorem Pane.visibleLines_pos (height : Nat) : 0 < visibleLines height :=
  Nat.lt_of_lt_of_le Nat.zero_lt_one (Nat.le_max_right _ _)

theorem Pane.visibleLines_of_tall {height : Nat} (tall : 3 ≤ height) :
    visibleLines height = height - 2 :=
  Nat.max_eq_left (by omega)

namespace TreePane

/-- A window at an offset shows the selected row, and no blank below the last row while rows are
hidden above. -/
structure Shows (offset selected total visible : Nat) : Prop where
  begins : offset ≤ selected
  ends : selected < offset + visible
  filled : offset ≠ 0 → offset + visible ≤ total

variable {scroll selected total visible : Nat}

theorem boundedOffset_shows {reached : Nat} (listed : selected < total) (begins : reached ≤ selected)
    (ends : selected < reached + visible) :
    Shows (Pane.boundedOffset reached total visible) selected total visible := by
  unfold Pane.boundedOffset
  split
  -- The greatest offset shows the last row, so the selected one is shown from there or from before.
  case isTrue more => exact ⟨by omega, by omega, by omega⟩
  case isFalse fewer => exact ⟨Nat.zero_le _, by omega, fun moved => absurd rfl moved⟩

theorem boundedOffset_of_shows (shows : Shows scroll selected total visible) :
    Pane.boundedOffset scroll total visible = scroll := by
  have filled := shows.filled
  unfold Pane.boundedOffset
  split <;> omega

/-- The offset from which the selected row is reached, before it is bounded. -/
theorem exists_reached (scroll selected : Nat) (positive : 0 < visible) :
    ∃ reached, reached ≤ selected ∧ selected < reached + visible ∧
      (scroll ≤ selected → selected < scroll + visible → reached = scroll) ∧
      ∀ total, offsetTo scroll selected total visible = Pane.boundedOffset reached total visible := by
  refine ⟨_, ?_, ?_, ?_, fun _ => rfl⟩
  all_goals
    split
    · omega
    · split <;> omega

theorem offsetTo_shows (listed : selected < total) (positive : 0 < visible) :
    Shows (offsetTo scroll selected total visible) selected total visible := by
  obtain ⟨reached, begins, ends, -, offset⟩ := exists_reached scroll selected positive
  rw [offset]
  exact boundedOffset_shows listed begins ends

theorem offsetTo_of_shows (shows : Shows scroll selected total visible) (positive : 0 < visible) :
    offsetTo scroll selected total visible = scroll := by
  obtain ⟨reached, -, -, unmoved, offset⟩ := exists_reached scroll selected positive
  rw [offset, unmoved shows.begins shows.ends]
  exact boundedOffset_of_shows shows

variable {rows : List TreeEntry}

theorem ne_nil_of_listed (listed : selected < rows.length) : rows ≠ [] :=
  List.ne_nil_of_length_pos (Nat.zero_lt_of_lt listed)

theorem offsetAfter_of_listed (listed : selected < rows.length) (scroll height : Nat) :
    offsetAfter rows selected scroll height =
      offsetTo scroll selected rows.length (Pane.visibleLines height) :=
  if_neg (ne_nil_of_listed listed)

theorem offsetAfter_shows (listed : selected < rows.length) (scroll height : Nat) :
    Shows (offsetAfter rows selected scroll height) selected rows.length
      (Pane.visibleLines height) := by
  rw [offsetAfter_of_listed listed]
  exact offsetTo_shows listed (Pane.visibleLines_pos height)

theorem offsetAfter_of_shows {height : Nat} (listed : selected < rows.length)
    (shows : Shows scroll selected rows.length (Pane.visibleLines height)) :
    offsetAfter rows selected scroll height = scroll := by
  rw [offsetAfter_of_listed listed]
  exact offsetTo_of_shows shows (Pane.visibleLines_pos height)

end TreePane

/-! ## Computing in words -/

namespace Checked

def sum (first second : Nat) : Option Nat :=
  if first + second ≤ Viewer.lastPosition then some (first + second) else none

def difference (first second : Nat) : Option Nat :=
  if second ≤ first then some (first - second) else none

def boundedOffset (offset total visible : Nat) : Option Nat :=
  if total > visible then (difference total visible).map (min offset) else some 0

/-- The offset that keeps the selected row in the window, where each sum and each difference that
it takes is a word. -/
def offsetTo (scroll selected total visible : Nat) : Option Nat := do
  let reached ←
    if selected < scroll then some selected
    else do
      let ended ← sum scroll visible
      if selected ≥ ended then do
        let next ← sum selected 1
        difference next visible
      else some scroll
  boundedOffset reached total visible

variable {scroll selected total visible : Nat}

theorem boundedOffset_eq (offset total visible : Nat) :
    boundedOffset offset total visible = some (Pane.boundedOffset offset total visible) := by
  unfold boundedOffset Pane.boundedOffset
  split
  case isTrue more => rw [difference, if_pos (Nat.le_of_lt more), Option.map_some]
  case isFalse => rfl

/-- No step on the way to an offset leaves the words, if neither the window nor the selection ends
beyond them. -/
theorem offsetTo_eq (ends : scroll + visible ≤ Viewer.lastPosition)
    (next : selected + 1 ≤ Viewer.lastPosition) :
    offsetTo scroll selected total visible =
      some (TreePane.offsetTo scroll selected total visible) := by
  unfold offsetTo TreePane.offsetTo
  rw [sum, if_pos ends, sum, if_pos next]
  split
  case isTrue above => exact boundedOffset_eq _ _ _
  case isFalse =>
    simp only [Option.bind_eq_bind, Option.bind_some]
    split
    case isTrue below =>
      -- The selected row is below the window, hence not among the first `visible` rows.
      rw [difference, if_pos (by omega)]
      exact boundedOffset_eq _ _ _
    case isFalse => exact boundedOffset_eq _ _ _

end Checked

/-! ## Offsets that runs leave -/

namespace Viewer

variable {graph : Graph} {source : String} {done : List Action} {viewer : Viewer} {terminal : Terminal}

theorem Fits.selected_lt (fits : Fits graph source done viewer) (listed : viewer.rows ≠ []) :
    viewer.selected < viewer.rows.length :=
  fits.selected.resolve_right fun none => listed none.1

theorem Fits.treeOffset_lt_act (fits : Fits graph source done viewer) (listed : viewer.rows ≠ [])
    (within : viewer.treeOffset < viewer.rows.length) (action : Action) :
    (viewer.act terminal action).treeOffset < (viewer.act terminal action).rows.length := by
  have rows : (viewer.act terminal action).rows = viewer.rows :=
    (fits.act terminal action).rows.trans fits.rows.symm
  rw [rows]
  cases action with
  | press key =>
    show (viewer.press key).treeOffset < viewer.rows.length
    rwa [(viewer.framed terminal).keys key]
  | draw asked =>
    have selected := fits.selected_lt listed
    exact Nat.lt_of_le_of_lt (TreePane.offsetAfter_shows selected _ _).begins selected

theorem Fits.treeOffset_lt_after (fits : Fits graph source done viewer) (listed : viewer.rows ≠ [])
    (within : viewer.treeOffset < viewer.rows.length) (actions : List Action) :
    (viewer.after terminal actions).treeOffset < (viewer.after terminal actions).rows.length := by
  induction actions generalizing done viewer with
  | nil => exact within
  | cons action actions ih =>
    have next := fits.act terminal action
    have listed' : (viewer.act terminal action).rows ≠ [] := by
      rwa [next.rows, ← fits.rows]
    exact ih next listed' (fits.treeOffset_lt_act listed within action)

/-- Keys and draws lead to it from a start, in some order. -/
def Reachable (terminal : Terminal) (viewer : Viewer) : Prop :=
  ∃ graph source actions, viewer = (start graph source).after terminal actions

namespace Reachable

theorem fits (reachable : viewer.Reachable terminal) :
    ∃ graph source actions, Fits graph source actions viewer := by
  obtain ⟨graph, source, actions, rfl⟩ := reachable
  exact ⟨graph, source, actions, (fits_start graph source).after terminal actions⟩

theorem settled (reachable : viewer.Reachable terminal) :
    viewer.selected < viewer.rows.length ∨ viewer.rows = [] := by
  obtain ⟨graph, source, actions, fits⟩ := reachable.fits
  exact fits.selected.imp_right And.left

theorem selected_lt (reachable : viewer.Reachable terminal) (listed : viewer.rows ≠ []) :
    viewer.selected < viewer.rows.length :=
  reachable.settled.resolve_right listed

theorem treeOffset_lt (reachable : viewer.Reachable terminal) (listed : viewer.rows ≠ []) :
    viewer.treeOffset < viewer.rows.length := by
  obtain ⟨graph, source, actions, rfl⟩ := reachable
  have fits := fits_start graph source
  have listed : (start graph source).rows ≠ [] := by
    rwa [fits.rows, ← (fits.after terminal actions).rows]
  exact fits.treeOffset_lt_after listed (List.length_pos_iff.mpr listed) actions

end Reachable

end Viewer

end TypedLisp
