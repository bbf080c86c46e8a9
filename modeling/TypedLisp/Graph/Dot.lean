import TypedLisp.Graph

/-! Graphs as DOT text.

Each vertex and each edge takes one line. Quotes, backslashes and line ends of a
label are escaped, so a label's string ends at the first bare quote.
-/

set_option autoImplicit false

namespace TypedLisp.Graph.Dot

def escapeCharacter (character : Char) : List Char :=
  if character = '"' then ['\\', '"']
  else if character = '\\' then ['\\', '\\']
  else if character = '\n' then ['\\', 'n']
  else [character]

def escape (label : String) : String :=
  String.ofList (label.toList.flatMap escapeCharacter)

def vertexLine (vertex : Vertex) : String :=
  "\t" ++ vertex.identity ++ " [label=\"" ++ escape vertex.label ++ "\"]\n"

def edgeLine (edge : Edge) : String :=
  "\t" ++ edge.parent ++ " -> " ++ edge.child ++ "\n"

def header : String :=
  "digraph AST \x7b\n" ++
  "\tnode [fixedsize=true fontname=\"segoe ui\" height=0.8 shape=ellipse width=1.2]\n"

/-- Undoes the escapes of a label up to its closing quote, and returns what follows it. -/
def unescape : List Char → Option (List Char × List Char)
  | '"' :: rest => some ([], rest)
  | '\\' :: 'n' :: rest => (unescape rest).map fun (label, after) => ('\n' :: label, after)
  | '\\' :: character :: rest =>
      (unescape rest).map fun (label, after) => (character :: label, after)
  | character :: rest => (unescape rest).map fun (label, after) => (character :: label, after)
  | [] => none

theorem escapeCharacter_plain {character : Char} (quote : character ≠ '"')
    (backslash : character ≠ '\\') (newline : character ≠ '\n') :
    escapeCharacter character = [character] := by
  simp [escapeCharacter, quote, backslash, newline]

theorem unescape_escape (label rest : List Char) :
    unescape (label.flatMap escapeCharacter ++ '"' :: rest) = some (label, rest) := by
  induction label with
  | nil => simp [unescape]
  | cons character label ih =>
    rw [List.flatMap_cons, List.append_assoc]
    by_cases quote : character = '"'
    · subst quote
      rw [show escapeCharacter '"' = ['\\', '"'] from rfl]
      simp [unescape, ih]
    by_cases backslash : character = '\\'
    · subst backslash
      rw [show escapeCharacter '\\' = ['\\', '\\'] from rfl]
      simp [unescape, ih]
    by_cases newline : character = '\n'
    · subst newline
      rw [show escapeCharacter '\n' = ['\\', 'n'] from rfl]
      simp [unescape, ih]
    · rw [escapeCharacter_plain quote backslash newline]
      simp [unescape, ih, backslash]

end TypedLisp.Graph.Dot

namespace TypedLisp.Graph

def dotText (graph : Graph) : String :=
  Dot.header ++ String.join (graph.vertices.map Dot.vertexLine) ++
    String.join (graph.edges.map Dot.edgeLine) ++ "\x7d\n"

end TypedLisp.Graph
