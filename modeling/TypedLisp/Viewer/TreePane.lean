import TypedLisp.Graph.Outline
import TypedLisp.Node
import TypedLisp.Viewer.Painting

/-! The outline of a tree with one row selected. -/

set_option autoImplicit false

namespace TypedLisp

structure TreeEntry where
  depth : Nat
  kind : String
  leaves : List String
  deriving Repr, DecidableEq

namespace TreeEntry

def ofOutline (row : OutlineLine) : TreeEntry :=
  match row.labelLines with
  | [] => ⟨row.depth, "", []⟩
  | kind :: leaves => ⟨row.depth, kind, leaves⟩

def ofGraph (graph : Graph) : List TreeEntry :=
  graph.outline.map ofOutline

def description (row : TreeEntry) : String :=
  row.kind ++ " (depth " ++ toString row.depth ++ ")"

def styleOfKind (kind : String) : Style :=
  match NodeKind.ofName? kind with
  | some (.operator _) => (Style.colored Theme.operator).inBold
  | some .definition | some .printNum | some .printBool
  | some .conditional | some .function | some .call => (Style.colored Theme.keyword).inBold
  | some .number | some .boolean | some .identifier => .colored Theme.text
  | _ => .colored Theme.comment

def styleOfLeaf (kind : String) : Style :=
  match NodeKind.ofName? kind with
  | some .number => .colored Theme.number
  | some .boolean => .colored Theme.boolean
  | some .identifier => .colored Theme.identifier
  | _ => .colored Theme.leaf

def guides (depth : Nat) : List Span :=
  if depth = 0 then [] else [⟨String.join (List.replicate depth "│ "), .colored Theme.guide⟩]

def spans (row : TreeEntry) : List Span :=
  guides row.depth ++ ⟨row.kind, styleOfKind row.kind⟩ ::
    row.leaves.map fun leaf => ⟨" " ++ leaf, styleOfLeaf row.kind⟩

end TreeEntry

namespace TreePane

/-- The offset that keeps the selected row in the window and moves as little as that takes. -/
def offsetTo (scroll selected total visible : Nat) : Nat :=
  let reached :=
    if selected < scroll then selected
    else if selected ≥ scroll + visible then selected + 1 - visible
    else scroll
  Pane.boundedOffset reached total visible

/-- The offset after drawing on a pane; without rows it stays as it is. -/
def offsetAfter (rows : List TreeEntry) (selected scroll height : Nat) : Nat :=
  if rows = [] then scroll
  else offsetTo scroll selected rows.length (Pane.visibleLines height)

def line (selected : Nat) (row : TreeEntry) (index : Nat) : Line :=
  ⟨row.spans, if index = selected then some Theme.selection else none⟩

def lines (rows : List TreeEntry) (selected offset visible : Nat) : List Line :=
  (Pane.window offset visible rows.zipIdx).map fun (row, index) => line selected row index

def pane (rows : List TreeEntry) (selected scroll : Nat) (focused : Bool) (height : Nat) : Pane :=
  let title := " Syntax Tree "
  let border := Theme.borderStyle focused
  if rows = [] then
    let comment := Style.colored Theme.comment
    { title, border, blank := comment, lines := [⟨[⟨"(empty tree)", comment⟩], none⟩] }
  else
    let offset := offsetAfter rows selected scroll height
    { title, border, lines := lines rows selected offset (Pane.visibleLines height) }

def draw (rows : List TreeEntry) (selected scroll : Nat) (focused : Bool) (width height : Nat) :
    Screen :=
  (pane rows selected scroll focused height).paint width height

end TreePane

end TypedLisp
