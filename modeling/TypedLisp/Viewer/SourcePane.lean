import TypedLisp.Text.Lines
import TypedLisp.Viewer.Highlight
import TypedLisp.Viewer.Painting

/-! A source text with its lines numbered from one. -/

set_option autoImplicit false

namespace TypedLisp.SourcePane

/-- A line number with blanks before it up to four characters, and one after it. -/
def lineNumber (number : Nat) : String :=
  let digits := Nat.toDigits 10 number
  String.ofList (List.replicate (4 - digits.length) ' ' ++ digits ++ [' '])

def lineSpans (line : List Char) (number : Nat) : List Span :=
  ⟨lineNumber number, .colored Theme.comment⟩ :: Highlight.spans line

def sourceLines (source : String) : List (List Char) :=
  Text.lines source.toList

def offsetAfter (source : String) (scroll height : Nat) : Nat :=
  Pane.boundedOffset scroll (sourceLines source).length (Pane.visibleLines height)

def lines (source : String) (offset visible : Nat) : List Line :=
  (Pane.window offset visible ((sourceLines source).zipIdx 1)).map fun (line, number) =>
    ⟨lineSpans line number, none⟩

def pane (source : String) (scroll : Nat) (focused : Bool) (height : Nat) : Pane where
  title := " Source Code "
  border := Theme.borderStyle focused
  lines := lines source (offsetAfter source scroll height) (Pane.visibleLines height)

def draw (source : String) (scroll : Nat) (focused : Bool) (width height : Nat) : Screen :=
  (pane source scroll focused height).paint width height

end TypedLisp.SourcePane
