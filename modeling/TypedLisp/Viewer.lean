import TypedLisp.Viewer.SourcePane
import TypedLisp.Viewer.TreePane

/-! The viewer: a tree beside its source, driven by keys.

Keys move the selection of the tree or the scroll offset of the source, whichever
pane has the focus. The scroll offsets are brought within bounds by drawing, and
by drawing only, since only then the size of the screen is known.
-/

set_option autoImplicit false

namespace TypedLisp

inductive Focus where
  | tree
  | source
  deriving Repr, DecidableEq

def Focus.other : Focus → Focus
  | .tree => .source
  | .source => .tree

inductive Key where
  | up
  | down
  | pageUp
  | pageDown
  | first
  | last
  | tab
  | escape
  | character (character : Char)
  | other
  deriving Repr, DecidableEq

structure Viewer where
  rows : List TreeEntry
  source : String
  focus : Focus
  selected : Nat
  treeOffset : Nat
  sourceOffset : Nat
  quit : Bool
  status : String
  deriving Repr, DecidableEq

namespace Viewer

def initialStatus : String := "Parsed successfully"

def start (graph : Graph) (source : String) : Viewer where
  rows := TreeEntry.ofGraph graph
  source := source
  focus := .tree
  selected := 0
  treeOffset := 0
  sourceOffset := 0
  quit := false
  status := initialStatus

def pageRows : Int := 10

def farBack : Int := Decimal.signed64.least

def farOn : Int := Decimal.signed64.greatest

/-- The greatest position: an unsigned word of 64 bits. -/
def lastPosition : Nat := 0xffffffffffffffff

/-- Moves a position, stopping at both ends. -/
def shifted (position : Nat) (distance : Int) : Nat :=
  min (position + distance).toNat lastPosition

def select (viewer : Viewer) (distance : Int) : Viewer :=
  let selected := min (shifted viewer.selected distance) (viewer.rows.length - 1)
  { viewer with
    selected
    status := (viewer.rows[selected]?.map TreeEntry.description).getD viewer.status }

def move (viewer : Viewer) (distance : Int) : Viewer :=
  match viewer.focus with
  | .tree => viewer.select distance
  | .source => { viewer with sourceOffset := shifted viewer.sourceOffset distance }

def press (viewer : Viewer) : Key → Viewer
  | .character 'q' | .character 'Q' | .escape => { viewer with quit := true }
  | .tab => { viewer with focus := viewer.focus.other }
  | .up => viewer.move (-1)
  | .down => viewer.move 1
  | .pageUp => viewer.move (-pageRows)
  | .pageDown => viewer.move pageRows
  | .first => viewer.move farBack
  | .last => viewer.move farOn
  | .character _ | .other => viewer

/-- What is handed over for panes of a height. -/
def contents (viewer : Viewer) (height : Nat) : Contents where
  tree := TreePane.pane viewer.rows viewer.selected viewer.treeOffset (viewer.focus == .tree) height
  source := SourcePane.pane viewer.source viewer.sourceOffset (viewer.focus == .source) height
  status := StatusLine.describing viewer.status viewer.selected viewer.rows.length

/-- The viewer after drawing panes of a height. -/
def afterDraw (viewer : Viewer) (height : Nat) : Viewer :=
  { viewer with
    treeOffset := TreePane.offsetAfter viewer.rows viewer.selected viewer.treeOffset height
    sourceOffset := SourcePane.offsetAfter viewer.source viewer.sourceOffset height }

def drawOn (terminal : Terminal) (viewer : Viewer) (asked : Screen.Size) : Screen × Viewer :=
  let height := terminal.paneHeight asked
  (terminal.paint asked (viewer.contents height), viewer.afterDraw height)

def draw (viewer : Viewer) (asked : Screen.Size) : Screen × Viewer :=
  viewer.drawOn .standard asked

end Viewer

end TypedLisp
