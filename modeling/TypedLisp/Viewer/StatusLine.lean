import TypedLisp.Text.Lines
import TypedLisp.Viewer.Theme

/-! The line below the panes: the position and a message on the left, the keys on
the right.
-/

set_option autoImplicit false

namespace TypedLisp

structure StatusLine where
  left : List Span
  right : List Span
  deriving Repr, DecidableEq

namespace StatusLine

def note (color : Color) : Style :=
  (Style.colored color).on Theme.selection

def keyStyle : Style :=
  (Style.colored .black).on Theme.comment

/-- The position counts from one in a word of 64 bits, and never passes the total. -/
def position (selected total : Nat) : String :=
  " Node " ++ toString (min (selected.toUInt64 + 1).toNat total) ++ "/" ++ toString total ++ " "

/-- The lines of a message are shown without a gap between them. -/
def shownMessage (message : String) : String :=
  String.ofList (' ' :: (Text.lines message.toList).flatten ++ [' '])

def leftSpans (message : String) (selected total : Nat) : List Span :=
  [⟨position selected total, ((Style.colored .black).on Theme.success).inBold⟩,
   ⟨" | ", note Theme.comment⟩,
   ⟨shownMessage message, note Theme.text⟩]

def keys : List (String × String) :=
  [(" ↑/↓ ", " move "), (" ⇞/⇟ ", " page "), (" ⇥ ", " focus "), ("q", " quit ")]

def keySpans (key description : String) : List Span :=
  [⟨key, keyStyle⟩, ⟨description, note Theme.text⟩]

def separator : List Span :=
  [⟨"│", note Theme.comment⟩, ⟨" ", note Theme.text⟩]

def rightSpans : List Span :=
  separator.intercalate (keys.map fun (key, description) => keySpans key description)

def describing (message : String) (selected total : Nat) : StatusLine :=
  ⟨leftSpans message selected total, rightSpans⟩

end StatusLine

end TypedLisp
