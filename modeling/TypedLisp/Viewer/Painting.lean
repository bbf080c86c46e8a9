import TypedLisp.Screen.Size
import TypedLisp.Text.Characters
import TypedLisp.Viewer.Pane
import TypedLisp.Viewer.StatusLine

/-! Painting panes and the status line on a screen.

A terminal decides how high the panes are and paints what they hand over; the viewer
knows nothing else of it. On the standard one rows are put together, and nothing is
painted over. A character takes a cell for each of its columns: it stands in the first,
and the cell that a wide one covers besides stays as it is on a clear screen.
-/

set_option autoImplicit false

namespace TypedLisp

/-- What a draw of the viewer hands over to be painted. -/
structure Contents where
  tree : Pane
  source : Pane
  status : StatusLine
  deriving Repr, DecidableEq

/-- The height of the panes on a screen of which a size is asked for, and what is painted there. -/
structure Terminal where
  paneHeight : Screen.Size → Nat
  paint : Screen.Size → Contents → Screen

namespace Cell

def clear : Cell := ⟨' ', .plain⟩

def columns (cell : Cell) : Nat :=
  Text.columns cell.character

def withCovered (cell : Cell) : CellRow :=
  cell :: List.replicate (cell.columns - 1) clear

end Cell

namespace CellRow

/-- Characters side by side from the left, up to the first that has no room in the width. -/
def place : Nat → List Cell → CellRow
  | _, [] => []
  | width, cell :: rest =>
      if cell.columns ≤ width then cell.withCovered ++ place (width - cell.columns) rest else []

def fit (width : Nat) (blank : Cell) (row : CellRow) : CellRow :=
  row.take width ++ List.replicate (width - row.length) blank

end CellRow

namespace Span

def cells (span : Span) : List Cell :=
  span.text.toList.map (Cell.mk · span.style)

def restyled (change : Style → Style) (span : Span) : Span :=
  { span with style := change span.style }

end Span

def lineCells (width : Nat) (spans : List Span) : CellRow :=
  CellRow.place width (spans.flatMap Span.cells)

namespace Line

def styled (line : Line) (style : Style) : Style :=
  line.background.elim style style.on

def cells (width : Nat) (blank : Style) (line : Line) : CellRow :=
  CellRow.fit width ⟨' ', line.styled blank⟩
    (lineCells width (line.spans.map (Span.restyled line.styled)))

end Line

namespace Pane

def between (width : Nat) (left right : Cell) (middle : CellRow) : CellRow :=
  (left :: middle ++ [right]).take width

/-- A box of the given size; lines beyond its inner height are not shown. -/
def paint (pane : Pane) (width height : Nat) : Screen :=
  let edge (character : Char) : Cell := ⟨character, pane.border⟩
  let inner := width - 2
  let heading := CellRow.fit inner (edge '─') (lineCells inner [⟨pane.title, pane.border⟩])
  let top := between width (edge '┌') (edge '┐') heading
  let bottom := between width (edge '└') (edge '┘') (List.replicate inner (edge '─'))
  let filled := pane.lines.take (height - 2) ++ List.replicate (height - 2 - pane.lines.length) ⟨[], none⟩
  let body := filled.map fun line =>
    between width (edge '│') (edge '│') (line.cells inner pane.blank)
  match height with
  | 0 => []
  | 1 => [top]
  | _ => top :: body ++ [bottom]

end Pane

namespace StatusLine

def blank : Cell :=
  ⟨' ', { background := some Theme.selection }⟩

def alignRight (width : Nat) (row : CellRow) : CellRow :=
  List.replicate (width - row.length) blank ++ row

def paint (line : StatusLine) (width height : Nat) : Screen :=
  let half := (width + 1) / 2
  let left := CellRow.fit half blank (lineCells half line.left)
  let right := alignRight (width - half) (lineCells (width - half) line.right)
  match height with
  | 0 => []
  | height + 1 => (left ++ right) :: List.replicate height (List.replicate width blank)

def draw (message : String) (selected total width height : Nat) : Screen :=
  (describing message selected total).paint width height

end StatusLine

namespace Contents

/-- The columns of the tree pane: 55 of a hundred, to the nearest, a half being rounded up. -/
def treeWidth (width : Nat) : Nat :=
  (55 * width + 50) / 100

def paint (contents : Contents) (size : Screen.Size) : Screen :=
  let left := treeWidth size.width
  let tree := contents.tree.paint left (size.height - 1)
  let source := contents.source.paint (size.width - left) (size.height - 1)
  tree.zipWith (· ++ ·) source ++ contents.status.paint size.width (min size.height 1)

end Contents

/-- Screens as close to the size asked for as there is one, the last row being the status line. -/
def Terminal.standard : Terminal where
  paneHeight asked := asked.available.height - 1
  paint asked contents := contents.paint asked.available

end TypedLisp
