import TypedLisp.Viewer

/-! Runs of the viewer: keys and draws in any order.

A key leaves the viewer, moves the focus, moves within the pane that has the focus,
or does nothing. Only a move in the tree touches the selection, and it always ends
on a row if there is one and describes that row. What has been pressed so far is
all that the focus and the wish to quit depend on.
-/

set_option autoImplicit false

namespace TypedLisp

def Key.Quits (key : Key) : Prop :=
  key = .character 'q' ∨ key = .character 'Q' ∨ key = .escape

theorem Focus.other_eq_source_iff (focus : Focus) : focus.other = .source ↔ focus ≠ .source := by
  cases focus <;> decide

namespace Viewer

inductive Action where
  | press (key : Key)
  | draw (asked : Screen.Size)
  deriving Repr, DecidableEq

def act (terminal : Terminal) (viewer : Viewer) : Action → Viewer
  | .press key => viewer.press key
  | .draw asked => (viewer.drawOn terminal asked).2

def after (terminal : Terminal) (viewer : Viewer) (actions : List Action) : Viewer :=
  actions.foldl (act terminal) viewer

/-! ## One action -/

theorem press_cases (viewer : Viewer) (key : Key) :
    (key.Quits ∧ viewer.press key = { viewer with quit := true }) ∨
      (key = .tab ∧ viewer.press key = { viewer with focus := viewer.focus.other }) ∨
      (¬key.Quits ∧ key ≠ .tab ∧
        (viewer.press key = viewer ∨ ∃ distance, viewer.press key = viewer.move distance)) := by
  by_cases quits : key.Quits
  · refine .inl ⟨quits, ?_⟩
    obtain rfl | rfl | rfl := quits <;> rfl
  · refine .inr ?_
    by_cases tab : key = .tab
    · subst tab
      exact .inl ⟨rfl, rfl⟩
    · refine .inr ⟨quits, tab, ?_⟩
      cases key with
      | tab => exact absurd rfl tab
      | escape => exact absurd (.inr (.inr rfl)) quits
      | up | down | pageUp | pageDown | first | last => exact .inr ⟨_, rfl⟩
      | other => exact .inl rfl
      | character letter =>
        have small : letter ≠ 'q' := fun same => quits (.inl (congrArg _ same))
        have capital : letter ≠ 'Q' := fun same => quits (.inr (.inl (congrArg _ same)))
        refine .inl ?_
        rw [press]
        · exact small
        · exact capital

theorem move_of_tree {viewer : Viewer} (focused : viewer.focus = .tree) (distance : Int) :
    viewer.move distance = viewer.select distance := by
  rw [move, focused]

theorem move_of_source {viewer : Viewer} (focused : viewer.focus = .source) (distance : Int) :
    viewer.move distance =
      { viewer with sourceOffset := shifted viewer.sourceOffset distance } := by
  rw [move, focused]

theorem select_selected_lt {viewer : Viewer} (rows : viewer.rows ≠ []) (distance : Int) :
    (viewer.select distance).selected < viewer.rows.length := by
  have positive := List.length_pos_iff.mpr rows
  simp only [select]
  omega

theorem select_of_rows_nil {viewer : Viewer} (rows : viewer.rows = []) (distance : Int) :
    viewer.select distance = { viewer with selected := 0 } := by
  simp [select, rows]

theorem exists_row_of_select {viewer : Viewer} (rows : viewer.rows ≠ []) (distance : Int) :
    ∃ row, viewer.rows[(viewer.select distance).selected]? = some row ∧
      (viewer.select distance).status = row.description := by
  have listed := List.getElem?_eq_getElem (select_selected_lt rows distance)
  refine ⟨_, listed, ?_⟩
  simp only [select] at listed ⊢
  rw [listed]
  rfl

/-! ## What an action leaves alone -/

/-- A key keeps what neither quitting nor the focus nor a move bears on. -/
theorem read_press {α : Type} (viewer : Viewer) (read : Viewer → α)
    (quit : read { viewer with quit := true } = read viewer)
    (focus : read { viewer with focus := viewer.focus.other } = read viewer)
    (move : ∀ distance, read (viewer.move distance) = read viewer) (key : Key) :
    read (viewer.press key) = read viewer := by
  obtain ⟨-, pressed⟩ | ⟨-, pressed⟩ | ⟨-, -, pressed | ⟨distance, pressed⟩⟩ :=
    viewer.press_cases key
  · rw [pressed, quit]
  · rw [pressed, focus]
  · rw [pressed]
  · rw [pressed, move]

structure Framed (terminal : Terminal) (viewer : Viewer) : Prop where
  treeKeys : viewer.focus = .tree → ∀ key,
    (viewer.press key).sourceOffset = viewer.sourceOffset
  sourceKeys : viewer.focus = .source → ∀ key,
    (viewer.press key).selected = viewer.selected ∧ (viewer.press key).status = viewer.status
  keys : ∀ key, (viewer.press key).treeOffset = viewer.treeOffset
  draws : ∀ asked, ∃ treeOffset sourceOffset,
    (viewer.drawOn terminal asked).2 = { viewer with treeOffset, sourceOffset }

theorem framed (terminal : Terminal) (viewer : Viewer) : viewer.Framed terminal where
  treeKeys focused := by
    refine viewer.read_press sourceOffset rfl rfl fun distance => ?_
    rw [move_of_tree focused, select]
  sourceKeys focused key := by
    have kept (distance : Int) := move_of_source focused distance
    constructor
    · exact viewer.read_press selected rfl rfl (fun distance => by rw [kept]) key
    · exact viewer.read_press status rfl rfl (fun distance => by rw [kept]) key
  keys := by
    refine viewer.read_press treeOffset rfl rfl fun distance => ?_
    cases focused : viewer.focus with
    | tree => rw [move_of_tree focused, select]
    | source => rw [move_of_source focused]
  draws asked := ⟨_, _, rfl⟩

/-! ## What a run keeps -/

/-- A viewer fits what it was started with and what has been done since. -/
structure Fits (graph : Graph) (source : String) (actions : List Action) (viewer : Viewer) :
    Prop where
  rows : viewer.rows = TreeEntry.ofGraph graph
  source : viewer.source = source
  selected : viewer.selected < viewer.rows.length ∨ viewer.rows = [] ∧ viewer.selected = 0
  status : (viewer.status = initialStatus ∧ viewer.selected = 0) ∨
    ∃ row, viewer.rows[viewer.selected]? = some row ∧
      viewer.status = row.kind ++ " (depth " ++ toString row.depth ++ ")"
  focus : viewer.focus = .source ↔ actions.count (.press .tab) % 2 = 1
  quit : viewer.quit = true ↔ ∃ key : Key, key.Quits ∧ Action.press key ∈ actions

variable {graph : Graph} {source : String} {done : List Action} {viewer : Viewer}

theorem fits_start (graph : Graph) (source : String) : (start graph source).Fits graph source [] where
  rows := rfl
  source := rfl
  selected := by
    cases (start graph source).rows with
    | nil => exact .inr ⟨rfl, rfl⟩
    | cons => exact .inl (Nat.succ_pos _)
  status := .inl ⟨rfl, rfl⟩
  focus := by simp [start]
  quit := by simp [start]

theorem count_tab_concat {action : Action} (other : action ≠ .press .tab) :
    (done ++ [action]).count (.press .tab) = done.count (.press .tab) := by
  rw [List.count_append, List.count_singleton, if_neg (by simpa using other), Nat.add_zero]

theorem quits_concat {action : Action} (stays : ∀ key : Key, key.Quits → action ≠ .press key) :
    (∃ key : Key, key.Quits ∧ Action.press key ∈ done ++ [action]) ↔
      ∃ key : Key, key.Quits ∧ Action.press key ∈ done := by
  refine exists_congr fun key => and_congr_right fun quits => ?_
  simp [(stays key quits).symm]

theorem Fits.select (fits : Fits graph source done viewer) (distance : Int) :
    Fits graph source done (viewer.select distance) where
  rows := fits.rows
  source := fits.source
  selected := by
    by_cases empty : viewer.rows = []
    · rw [select_of_rows_nil empty]
      exact .inr ⟨empty, rfl⟩
    · exact .inl (select_selected_lt empty distance)
  status := by
    by_cases empty : viewer.rows = []
    · have initial : viewer.status = initialStatus := by
        obtain ⟨initial, -⟩ | ⟨row, listed, -⟩ := fits.status
        · exact initial
        · simp [empty] at listed
      rw [select_of_rows_nil empty]
      exact .inl ⟨initial, rfl⟩
    · exact .inr (exists_row_of_select empty distance)
  focus := fits.focus
  quit := fits.quit

theorem Fits.scroll (fits : Fits graph source done viewer) (treeOffset sourceOffset : Nat) :
    Fits graph source done { viewer with treeOffset, sourceOffset } :=
  ⟨fits.rows, fits.source, fits.selected, fits.status, fits.focus, fits.quit⟩

theorem Fits.move (fits : Fits graph source done viewer) (distance : Int) :
    Fits graph source done (viewer.move distance) := by
  cases focused : viewer.focus with
  | tree =>
    rw [move_of_tree focused]
    exact fits.select distance
  | source =>
    rw [move_of_source focused]
    exact fits.scroll viewer.treeOffset (shifted viewer.sourceOffset distance)

/-- An action that neither quits nor moves the focus is one to forget. -/
theorem Fits.concat (fits : Fits graph source done viewer) {action : Action}
    (other : action ≠ .press .tab) (stays : ∀ key : Key, key.Quits → action ≠ .press key) :
    Fits graph source (done ++ [action]) viewer where
  rows := fits.rows
  source := fits.source
  selected := fits.selected
  status := fits.status
  focus := by rw [count_tab_concat other, fits.focus]
  quit := by rw [quits_concat stays, fits.quit]

theorem Fits.quit_of_press (fits : Fits graph source done viewer) {key : Key}
    (quits : key.Quits) :
    Fits graph source (done ++ [.press key]) { viewer with quit := true } where
  rows := fits.rows
  source := fits.source
  selected := fits.selected
  status := fits.status
  focus := by
    have other : Action.press key ≠ .press .tab := by
      obtain rfl | rfl | rfl := quits <;> decide
    rw [count_tab_concat other]
    exact fits.focus
  quit := ⟨fun _ => ⟨key, quits, List.mem_concat_self⟩, fun _ => rfl⟩

theorem Fits.tab (fits : Fits graph source done viewer) :
    Fits graph source (done ++ [.press .tab]) { viewer with focus := viewer.focus.other } where
  rows := fits.rows
  source := fits.source
  selected := fits.selected
  status := fits.status
  focus := by
    have parity : (done ++ [Action.press .tab]).count (.press .tab) =
        done.count (.press .tab) + 1 := by
      rw [List.count_append, List.count_singleton_self]
    rw [Focus.other_eq_source_iff, Ne, fits.focus, parity]
    omega
  quit := by
    have stays (key : Key) (quits : key.Quits) : Action.press .tab ≠ .press key := by
      obtain rfl | rfl | rfl := quits <;> decide
    rw [quits_concat stays]
    exact fits.quit

theorem Fits.act (fits : Fits graph source done viewer) (terminal : Terminal) (action : Action) :
    Fits graph source (done ++ [action]) (viewer.act terminal action) := by
  cases action with
  | draw asked =>
    have drawn := fits.scroll (viewer.drawOn terminal asked).2.treeOffset
      (viewer.drawOn terminal asked).2.sourceOffset
    exact drawn.concat Action.noConfusion fun _ _ => Action.noConfusion
  | press key =>
    show Fits graph source (done ++ [.press key]) (viewer.press key)
    obtain ⟨quits, pressed⟩ | ⟨rfl, pressed⟩ | ⟨stays, other, pressed⟩ := viewer.press_cases key
    · rw [pressed]
      exact fits.quit_of_press quits
    · rw [pressed]
      exact fits.tab
    · -- Any other key moves within the bounds or does nothing, and such keys are not counted.
      have moved : Fits graph source done (viewer.press key) := by
        obtain pressed | ⟨distance, pressed⟩ := pressed
        · rwa [pressed]
        · rw [pressed]
          exact fits.move distance
      refine moved.concat (fun same => other (Action.press.inj same)) ?_
      rintro quitting quits ⟨⟩
      exact stays quits

theorem Fits.after (fits : Fits graph source done viewer) (terminal : Terminal)
    (actions : List Action) :
    Fits graph source (done ++ actions) (viewer.after terminal actions) := by
  induction actions generalizing done viewer with
  | nil => rwa [List.append_nil]
  | cons action actions fits_after =>
    have next := fits_after (fits.act terminal action)
    rwa [List.append_assoc] at next

/-- Whatever keys are pressed and whatever draws are made, in any order. -/
theorem run_fits (terminal : Terminal) (graph : Graph) (source : String) (actions : List Action) :
    Fits graph source actions ((start graph source).after terminal actions) ∧
      Framed terminal ((start graph source).after terminal actions) :=
  ⟨(fits_start graph source).after terminal actions, framed terminal _⟩

end Viewer

end TypedLisp
