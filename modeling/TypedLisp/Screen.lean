/-! Screens of styled character cells.

A screen is a list of rows from the top, a row a list of cells from the left. What is
put on it are spans, texts of one style each.
-/

set_option autoImplicit false

namespace TypedLisp

inductive Color where
  | rgb (red green blue : Nat)
  | black
  deriving Repr, DecidableEq

/-- How a cell is shown; `none` is the terminal's own color. -/
structure Style where
  foreground : Option Color := none
  background : Option Color := none
  bold : Bool := false
  deriving Repr, DecidableEq

namespace Style

def plain : Style := {}

def colored (color : Color) : Style :=
  { plain with foreground := some color }

def on (style : Style) (background : Color) : Style :=
  { style with background := some background }

def inBold (style : Style) : Style :=
  { style with bold := true }

end Style

structure Cell where
  character : Char
  style : Style
  deriving Repr, DecidableEq

structure Span where
  text : String
  style : Style
  deriving Repr, DecidableEq

abbrev CellRow := List Cell

abbrev Screen := List CellRow

def lineText (spans : List Span) : String :=
  String.join (spans.map Span.text)

namespace CellRow

/-- The longest stretches of cells of one style. -/
def runs : CellRow → List Span
  | [] => []
  | cell :: rest =>
      match runs rest with
      | [] => [⟨cell.character.toString, cell.style⟩]
      | run :: others =>
          if cell.style = run.style then ⟨cell.character.toString ++ run.text, run.style⟩ :: others
          else ⟨cell.character.toString, cell.style⟩ :: run :: others

end CellRow

end TypedLisp
