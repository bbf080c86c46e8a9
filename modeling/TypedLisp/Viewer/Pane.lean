import TypedLisp.Viewer.Theme

/-! Panes: a window on some lines, in a box with a title.

The border takes the outermost cells, so a pane shows two rows less than its
height. A window shows at least one row for the sake of scrolling even where the
pane has no room for it.
-/

set_option autoImplicit false

namespace TypedLisp

/-- Spans side by side, on a background that goes behind all of the line. -/
structure Line where
  spans : List Span
  background : Option Color := none
  deriving Repr, DecidableEq

/-- What is handed over to be painted: the lines, and the style of what they leave blank. -/
structure Pane where
  title : String
  border : Style
  blank : Style := .plain
  lines : List Line
  deriving Repr, DecidableEq

namespace Pane

/-- The number of lines that a pane of a height scrolls by. -/
def visibleLines (height : Nat) : Nat :=
  max (height - 2) 1

/-- The offset nearest to the given one that leaves no blank below the last line
while lines are hidden above. -/
def boundedOffset (offset total visible : Nat) : Nat :=
  if total > visible then min offset (total - visible) else 0

theorem boundedOffset_le (offset total visible : Nat) :
    boundedOffset offset total visible ≤ total - visible := by
  unfold boundedOffset
  split <;> omega

theorem boundedOffset_idem (offset total visible : Nat) :
    boundedOffset (boundedOffset offset total visible) total visible =
      boundedOffset offset total visible := by
  unfold boundedOffset
  split <;> simp

section
variable {α β : Type}

def window (offset visible : Nat) (lines : List α) : List α :=
  (lines.drop offset).take visible

theorem length_window_le (offset visible : Nat) (lines : List α) :
    (window offset visible lines).length ≤ visible :=
  List.length_take_le _ _

theorem map_window (f : α → β) (offset visible : Nat) (lines : List α) :
    (window offset visible lines).map f = window offset visible (lines.map f) := by
  rw [window, window, List.map_take, List.map_drop]

theorem getElem?_window {place visible : Nat} (inside : place < visible) (offset : Nat) (lines : List α) :
    (window offset visible lines)[place]? = lines[offset + place]? := by
  rw [window, List.getElem?_take_of_lt inside, List.getElem?_drop]

end

end Pane

end TypedLisp
