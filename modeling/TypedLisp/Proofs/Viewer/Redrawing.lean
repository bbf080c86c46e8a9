import TypedLisp.Proofs.Viewer.Windows

/-! Drawing again at the same size.

An offset that a draw leaves is one that the next draw of the same size leaves alone,
and what is handed over to be painted depends on the offset that is left and not on the
one before it. So a second draw makes the same screen and the same viewer, and a run
goes on after any number of such draws as it does after the first of them.
-/

set_option autoImplicit false

namespace TypedLisp

namespace TreePane

variable {rows : List TreeEntry} {selected : Nat}

theorem offsetAfter_idem (settled : selected < rows.length ∨ rows = []) (scroll height : Nat) :
    offsetAfter rows selected (offsetAfter rows selected scroll height) height =
      offsetAfter rows selected scroll height := by
  obtain listed | empty := settled
  · exact offsetAfter_of_shows listed (offsetAfter_shows listed scroll height)
  · simp only [offsetAfter, if_pos empty]

theorem pane_offsetAfter (settled : selected < rows.length ∨ rows = []) (scroll : Nat)
    (focused : Bool) (height : Nat) :
    pane rows selected (offsetAfter rows selected scroll height) focused height =
      pane rows selected scroll focused height := by
  simp only [pane, offsetAfter_idem settled]

end TreePane

namespace SourcePane

theorem offsetAfter_idem (source : String) (scroll height : Nat) :
    offsetAfter source (offsetAfter source scroll height) height = offsetAfter source scroll height :=
  Pane.boundedOffset_idem ..

theorem pane_offsetAfter (source : String) (scroll : Nat) (focused : Bool) (height : Nat) :
    pane source (offsetAfter source scroll height) focused height =
      pane source scroll focused height := by
  simp only [pane, offsetAfter_idem]

end SourcePane

namespace Viewer

section
variable {viewer : Viewer}

theorem afterDraw_afterDraw (settled : viewer.selected < viewer.rows.length ∨ viewer.rows = [])
    (height : Nat) : (viewer.afterDraw height).afterDraw height = viewer.afterDraw height := by
  simp only [afterDraw, TreePane.offsetAfter_idem settled, SourcePane.offsetAfter_idem]

theorem contents_afterDraw (settled : viewer.selected < viewer.rows.length ∨ viewer.rows = [])
    (height : Nat) : (viewer.afterDraw height).contents height = viewer.contents height := by
  simp only [contents, afterDraw, TreePane.pane_offsetAfter settled, SourcePane.pane_offsetAfter]

theorem drawOn_drawOn (terminal : Terminal)
    (settled : viewer.selected < viewer.rows.length ∨ viewer.rows = []) (asked : Screen.Size) :
    (viewer.drawOn terminal asked).2.drawOn terminal asked = viewer.drawOn terminal asked := by
  have same := contents_afterDraw settled (terminal.paneHeight asked)
  exact Prod.ext (congrArg (terminal.paint asked) same) (afterDraw_afterDraw settled _)

end

/-! ## Frames of a run -/

/-- What an action leaves: the viewer, and the screen if it was a draw. -/
structure Frame where
  viewer : Viewer
  screen : Option Screen
  deriving Repr, DecidableEq

variable {terminal : Terminal}

def frame (terminal : Terminal) (viewer : Viewer) : Action → Frame
  | .press key => ⟨viewer.press key, none⟩
  | .draw asked => ⟨(viewer.drawOn terminal asked).2, some (viewer.drawOn terminal asked).1⟩

def frames (terminal : Terminal) (viewer : Viewer) : List Action → List Frame
  | [] => []
  | action :: rest =>
      viewer.frame terminal action :: frames terminal (viewer.frame terminal action).viewer rest

theorem viewer_frame (viewer : Viewer) (action : Action) :
    (viewer.frame terminal action).viewer = viewer.act terminal action := by
  cases action <;> rfl

theorem frames_append (viewer : Viewer) (first second : List Action) :
    viewer.frames terminal (first ++ second) =
      viewer.frames terminal first ++ (viewer.after terminal first).frames terminal second := by
  induction first generalizing viewer with
  | nil => rfl
  | cons action first ih =>
    rw [List.cons_append, frames, frames, ih, viewer_frame]
    rfl

/-- An action that leaves the same frame once more does so any number of times. -/
theorem frames_replicate {viewer : Viewer} {action : Action}
    (again : (viewer.frame terminal action).viewer.frame terminal action =
      viewer.frame terminal action) (extra : Nat) (rest : List Action) :
    viewer.frames terminal (List.replicate (extra + 1) action ++ rest) =
      List.replicate (extra + 1) (viewer.frame terminal action) ++
        (viewer.frame terminal action).viewer.frames terminal rest := by
  induction extra generalizing viewer with
  | zero => rfl
  | succ extra ih =>
    -- The frame that is left has the same frame again, so the rest is one of its own runs.
    have later := @ih (viewer.frame terminal action).viewer (by rw [again, again])
    rw [again] at later
    rw [List.replicate_succ, List.cons_append, frames, later, ← List.cons_append, ← List.replicate_succ]

theorem frame_redraw {viewer : Viewer}
    (settled : viewer.selected < viewer.rows.length ∨ viewer.rows = []) (asked : Screen.Size) :
    (viewer.frame terminal (.draw asked)).viewer.frame terminal (.draw asked) =
      viewer.frame terminal (.draw asked) := by
  simp only [frame, drawOn_drawOn terminal settled]

/-- A draw made again makes the same screen and leaves the same viewer. However often it is made, the
frames before it and those of the rest of the run are what they are without. -/
theorem redraw_changes_nothing (terminal : Terminal) (graph : Graph) (source : String)
    (before rest : List Action) (asked : Screen.Size) :
    (((start graph source).after terminal before).drawOn terminal asked).2.drawOn terminal asked =
        ((start graph source).after terminal before).drawOn terminal asked ∧
      ∀ extra, (start graph source).frames terminal
          (before ++ List.replicate (extra + 1) (.draw asked) ++ rest) =
        (start graph source).frames terminal before ++
          List.replicate (extra + 1)
            (((start graph source).after terminal before).frame terminal (.draw asked)) ++
          (((start graph source).after terminal before).drawOn terminal asked).2.frames terminal rest := by
  have reachable : ((start graph source).after terminal before).Reachable terminal :=
    ⟨graph, source, before, rfl⟩
  refine ⟨drawOn_drawOn terminal reachable.settled asked, fun extra => ?_⟩
  rw [List.append_assoc, frames_append, frames_replicate (frame_redraw reachable.settled asked),
    ← List.append_assoc]
  rfl

end Viewer

end TypedLisp
