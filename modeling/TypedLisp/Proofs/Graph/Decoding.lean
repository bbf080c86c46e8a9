import Mathlib.Data.List.Basic
import TypedLisp.Graph.Dot
import TypedLisp.Proofs.Graph.Flattening
import TypedLisp.Proofs.Text.Lines

/-! DOT text read back.

An escaped label has neither a line end nor a bare quote, so vertices and edges have
lines of their own and a label ends at the first bare quote. An identity without
spaces ends at the first space, and what follows it tells a vertex from an edge. So
the graph can be read off its text line by line.
-/

set_option autoImplicit false

namespace TypedLisp.Graph

def IsUnspaced (identity : String) : Prop :=
  ' ' ∉ identity.toList ∧ '\n' ∉ identity.toList

structure Unspaced (graph : Graph) : Prop where
  vertices : ∀ vertex ∈ graph.vertices, IsUnspaced vertex.identity
  parents : ∀ edge ∈ graph.edges, IsUnspaced edge.parent
  children : ∀ edge ∈ graph.edges, IsUnspaced edge.child

namespace Dot

/-! ## Lines -/

def labelOpening : List Char :=
  " [label=\"".toList

def arrow : List Char :=
  " -> ".toList

def escaped (label : String) : List Char :=
  label.toList.flatMap escapeCharacter

def vertexText (vertex : Vertex) : List Char :=
  '\t' :: (vertex.identity.toList ++ (labelOpening ++ (escaped vertex.label ++ ['"', ']'])))

def edgeText (edge : Edge) : List Char :=
  '\t' :: (edge.parent.toList ++ (arrow ++ edge.child.toList))

def headerLines : List String :=
  ["digraph AST \x7b",
   "\tnode [fixedsize=true fontname=\"segoe ui\" height=0.8 shape=ellipse width=1.2]"]

def lines (graph : Graph) : List (List Char) :=
  headerLines.map String.toList ++
    (graph.vertices.map vertexText ++ (graph.edges.map edgeText ++ [['\x7d']]))

theorem toList_vertexLine (vertex : Vertex) :
    (vertexLine vertex).toList = vertexText vertex ++ ['\n'] := by
  have tab : "\t".toList = ['\t'] := rfl
  have opening : " [label=\"".toList = labelOpening := rfl
  have label : (escape vertex.label).toList = escaped vertex.label := String.toList_ofList
  have closing : "\"]\n".toList = ['"', ']', '\n'] := rfl
  simp [vertexLine, vertexText, tab, opening, label, closing]

theorem toList_edgeLine (edge : Edge) : (edgeLine edge).toList = edgeText edge ++ ['\n'] := by
  simp [edgeLine, edgeText, arrow]

theorem toList_dotText (graph : Graph) :
    graph.dotText.toList = (lines graph).flatMap (· ++ ['\n']) := by
  have header : header.toList = (headerLines.map String.toList).flatMap (· ++ ['\n']) := by
    simp [header, headerLines]
  have footer : "\x7d\n".toList = [['\x7d']].flatMap (· ++ ['\n']) := rfl
  simp only [dotText, String.toList_append, String.toList_join, List.flatMap_map, toList_vertexLine,
    toList_edgeLine, header, footer, lines, List.flatMap_append, List.append_assoc]

/-! ## Strings -/

theorem escaped_unbroken (label : String) : '\n' ∉ escaped label := by
  intro member
  obtain ⟨character, -, member⟩ := List.mem_flatMap.mp member
  by_cases quote : character = '"'
  · subst quote
    exact absurd member (by decide)
  by_cases backslash : character = '\\'
  · subst backslash
    exact absurd member (by decide)
  by_cases newline : character = '\n'
  · subst newline
    exact absurd member (by decide)
  rw [escapeCharacter_plain quote backslash newline, List.mem_singleton] at member
  exact newline member.symm

/-- A string up to the quote that closes it, and what follows that quote. A quote or a backslash with a
backslash before it belongs to the string. -/
def string? : List Char → Option (List Char × List Char)
  | '"' :: rest => some ([], rest)
  | '\\' :: '"' :: rest => (string? rest).map fun (string, after) => ('\\' :: '"' :: string, after)
  | '\\' :: '\\' :: rest => (string? rest).map fun (string, after) => ('\\' :: '\\' :: string, after)
  | character :: rest => (string? rest).map fun (string, after) => (character :: string, after)
  | [] => none

theorem string?_plain {character : Char} (quote : character ≠ '"') (backslash : character ≠ '\\')
    (rest : List Char) :
    string? (character :: rest) =
      (string? rest).map fun (string, after) => (character :: string, after) := by
  rw [string?] <;> simp [quote, backslash]

-- The scanner steps over each escape as a whole, so it never takes the quote in one for the end.
theorem string?_escaped (label rest : List Char) :
    string? (label.flatMap escapeCharacter ++ '"' :: rest) =
      some (label.flatMap escapeCharacter, rest) := by
  induction label with
  | nil => rfl
  | cons character label ih =>
    rw [List.flatMap_cons, List.append_assoc]
    by_cases quote : character = '"'
    · subst quote
      simp [show escapeCharacter '"' = ['\\', '"'] from rfl, string?, ih]
    by_cases backslash : character = '\\'
    · subst backslash
      simp [show escapeCharacter '\\' = ['\\', '\\'] from rfl, string?, ih]
    by_cases newline : character = '\n'
    · subst newline
      simp [show escapeCharacter '\n' = ['\\', 'n'] from rfl, string?, ih]
    rw [escapeCharacter_plain quote backslash newline, List.singleton_append,
      string?_plain quote backslash, ih]
    rfl

/-! ## Reading -/

def identity? : List Char → Option (String × List Char)
  | '\t' :: line => some (String.ofList (line.takeWhile (· ≠ ' ')), line.dropWhile (· ≠ ' '))
  | _ => none

def vertex? (line : List Char) : Option Vertex := do
  let (identity, rest) ← identity? line
  let string ← labelOpening.isPrefixOf? rest
  let (label, after) ← unescape string
  if after = [']'] then some ⟨identity, String.ofList label⟩ else none

def edge? (line : List Char) : Option Edge := do
  let (parent, rest) ← identity? line
  let child ← arrow.isPrefixOf? rest
  some ⟨parent, String.ofList child⟩

/-- The graph of the vertices and edges that the lines of a text describe. -/
def read (text : String) : Graph :=
  let lines := Text.split '\n' text.toList
  ⟨lines.filterMap vertex?, lines.filterMap edge?⟩

theorem isPrefixOf?_append (pre rest : List Char) : pre.isPrefixOf? (pre ++ rest) = some rest :=
  List.isPrefixOf?_eq_some_iff_append_eq.mpr rfl

-- The identity ends at the first space, which is the one that the line puts behind it.
theorem identity?_of_isUnspaced {identity : String} (unspaced : IsUnspaced identity) {rest : List Char}
    (spaced : rest.head? = some ' ') :
    identity? ('\t' :: (identity.toList ++ rest)) = some (identity, rest) := by
  obtain ⟨others, rfl⟩ : ∃ others, rest = ' ' :: others := by
    cases rest with
    | nil => cases spaced
    | cons first others => exact ⟨others, congrArg (· :: others) (Option.some.inj spaced)⟩
  have all : ∀ character ∈ identity.toList, decide (character ≠ ' ') = true := fun character member =>
    decide_eq_true fun same => unspaced.1 (same ▸ member)
  rw [identity?, List.takeWhile_append_of_pos all, List.dropWhile_append_of_pos all]
  simp

theorem vertex?_vertexText {vertex : Vertex} (unspaced : IsUnspaced vertex.identity) :
    vertex? (vertexText vertex) = some vertex := by
  have label : unescape (escaped vertex.label ++ ['"', ']']) = some (vertex.label.toList, [']']) :=
    unescape_escape vertex.label.toList [']']
  have found := identity?_of_isUnspaced unspaced
    (rfl : (labelOpening ++ (escaped vertex.label ++ ['"', ']'])).head? = some ' ')
  simp [vertex?, vertexText, found, isPrefixOf?_append, label]

theorem edge?_edgeText {edge : Edge} (unspaced : IsUnspaced edge.parent) :
    edge? (edgeText edge) = some edge := by
  have found := identity?_of_isUnspaced unspaced
    (rfl : (arrow ++ edge.child.toList).head? = some ' ')
  simp [edge?, edgeText, found, isPrefixOf?_append]

/-- No line is read both ways. -/
theorem edge?_vertexText {vertex : Vertex} (unspaced : IsUnspaced vertex.identity) :
    edge? (vertexText vertex) = none := by
  have found := identity?_of_isUnspaced unspaced
    (rfl : (labelOpening ++ (escaped vertex.label ++ ['"', ']'])).head? = some ' ')
  have other (rest : List Char) : arrow.isPrefixOf? (labelOpening ++ rest) = none := rfl
  simp [edge?, vertexText, found, other]

theorem vertex?_edgeText {edge : Edge} (unspaced : IsUnspaced edge.parent) :
    vertex? (edgeText edge) = none := by
  have found := identity?_of_isUnspaced unspaced
    (rfl : (arrow ++ edge.child.toList).head? = some ' ')
  have other (rest : List Char) : labelOpening.isPrefixOf? (arrow ++ rest) = none := rfl
  simp [vertex?, edgeText, found, other]

/-! ## Whole texts -/

theorem vertexText_unbroken {vertex : Vertex} (unspaced : IsUnspaced vertex.identity) :
    '\n' ∉ vertexText vertex := by
  have opening : '\n' ∉ labelOpening := by decide
  have label := escaped_unbroken vertex.label
  simp [vertexText, opening, unspaced.2, label]

theorem edgeText_unbroken {edge : Edge} (parent : IsUnspaced edge.parent)
    (child : IsUnspaced edge.child) : '\n' ∉ edgeText edge := by
  simp [edgeText, arrow, parent.2, child.2]

theorem headerLines_unbroken : ∀ line ∈ headerLines.map String.toList, '\n' ∉ line := by
  simp [headerLines]

variable {graph : Graph}

theorem lines_unbroken (unspaced : graph.Unspaced) : ∀ line ∈ lines graph, '\n' ∉ line := by
  intro line member
  simp only [lines, List.mem_append, List.mem_singleton] at member
  rcases member with member | member | member | rfl
  · exact headerLines_unbroken line member
  · obtain ⟨vertex, listed, rfl⟩ := List.mem_map.mp member
    exact vertexText_unbroken (unspaced.vertices vertex listed)
  · obtain ⟨edge, listed, rfl⟩ := List.mem_map.mp member
    exact edgeText_unbroken (unspaced.parents edge listed) (unspaced.children edge listed)
  · decide

-- No line has a line end of its own, so the text is split where the lines have been joined.
theorem split_dotText (unspaced : graph.Unspaced) :
    Text.split '\n' graph.dotText.toList = lines graph ++ [[]] := by
  rw [toList_dotText]
  exact Text.split_flatMap_append (lines_unbroken unspaced)

section
variable {α : Type} {write : α → List Char} {items : List α}

theorem filterMap_map_of_reads {read? : List Char → Option α}
    (reads : ∀ item ∈ items, read? (write item) = some item) :
    (items.map write).filterMap read? = items := by
  induction items with
  | nil => rfl
  | cons item items ih =>
    obtain ⟨own, others⟩ := List.forall_mem_cons.mp reads
    rw [List.map_cons, List.filterMap_cons_some own, ih others]

theorem filterMap_map_of_unread {β : Type} {read? : List Char → Option β}
    (unread : ∀ item ∈ items, read? (write item) = none) : (items.map write).filterMap read? = [] := by
  rw [List.filterMap_map]
  exact List.filterMap_eq_nil_iff.mpr unread

end

theorem filterMap_lines {α : Type} {read? : List Char → Option α}
    (header : ∀ line ∈ headerLines, read? line.toList = none)
    (footer : read? ['\x7d'] = none ∧ read? [] = none) :
    (lines graph ++ [[]]).filterMap read? =
      (graph.vertices.map vertexText).filterMap read? ++
        (graph.edges.map edgeText).filterMap read? := by
  have header := filterMap_map_of_unread header
  simp [lines, header, footer]

theorem read_dotText (unspaced : graph.Unspaced) : read graph.dotText = graph := by
  have vertices : (lines graph ++ [[]]).filterMap vertex? = graph.vertices := by
    rw [filterMap_lines (by decide) ⟨rfl, rfl⟩,
      filterMap_map_of_reads fun vertex listed => vertex?_vertexText (unspaced.vertices vertex listed),
      filterMap_map_of_unread fun edge listed => vertex?_edgeText (unspaced.parents edge listed),
      List.append_nil]
  have edges : (lines graph ++ [[]]).filterMap edge? = graph.edges := by
    rw [filterMap_lines (by decide) ⟨rfl, rfl⟩,
      filterMap_map_of_unread fun vertex listed => edge?_vertexText (unspaced.vertices vertex listed),
      filterMap_map_of_reads fun edge listed => edge?_edgeText (unspaced.parents edge listed),
      List.nil_append]
  rw [read, split_dotText unspaced, vertices, edges]

end Dot

/-! ## Graphs of trees -/

theorem isUnspaced_identityOf (number : Nat) : IsUnspaced (identityOf number) := by
  have characters : ∀ character ∈ (identityOf number).toList,
      character ∈ "node".toList ∨ character.isDigit := by
    intro character member
    rw [identityOf, String.toList_append, List.mem_append] at member
    exact member.imp_right Text.isDigit_of_mem_toString
  constructor <;> intro member <;> exact absurd (characters _ member) (by decide)

theorem identities_of_mem_edges {tree : Node} {edge : Edge} (member : edge ∈ (ofNode tree).edges) :
    ∃ parent child, edge = ⟨identityOf parent, identityOf child⟩ := by
  obtain ⟨index, listed⟩ := List.mem_iff_getElem?.mp member
  obtain ⟨bound, -⟩ := List.getElem?_eq_some_iff.mp listed
  have length := length_edgesFrom 0 tree
  have within : index + 1 < tree.size := by
    rw [ofNode_eq] at bound
    exact length ▸ Nat.succ_lt_succ bound
  obtain ⟨parent, _, _, _, _, edge⟩ := edge_ofNode (Nat.succ_pos index) within
  exact ⟨_, _, Option.some.inj (listed.symm.trans edge)⟩

theorem unspaced_ofNode (tree : Node) : (ofNode tree).Unspaced := by
  have edges : ∀ edge ∈ (ofNode tree).edges, IsUnspaced edge.parent ∧ IsUnspaced edge.child := by
    intro edge member
    obtain ⟨parent, child, rfl⟩ := identities_of_mem_edges member
    exact ⟨isUnspaced_identityOf parent, isUnspaced_identityOf child⟩
  refine ⟨fun vertex member => ?_, fun edge member => (edges edge member).1,
    fun edge member => (edges edge member).2⟩
  rw [ofNode_eq] at member
  obtain ⟨entry, -, rfl⟩ := List.mem_map.mp member
  exact isUnspaced_identityOf entry.2

/-! ## Decoding -/

/-- In the text of a graph whose identities have neither spaces nor line ends, as those of trees are, each
vertex and each edge is one line. The string of a label ends where its line has the first bare
quote, and is the label again once the escapes are undone. So the text is of one such graph only. -/
theorem dotText_decodable :
    (∀ tree, (ofNode tree).Unspaced) ∧
    ∀ graph : Graph, graph.Unspaced →
      Text.split '\n' graph.dotText.toList =
        Dot.headerLines.map String.toList ++
          (graph.vertices.map Dot.vertexText ++ (graph.edges.map Dot.edgeText ++ [['\x7d'], []])) ∧
      (∀ vertex ∈ graph.vertices, ∃ string,
        Dot.vertexText vertex =
          '\t' :: (vertex.identity.toList ++ (Dot.labelOpening ++ (string ++ ['"', ']']))) ∧
        Dot.string? (string ++ ['"', ']']) = some (string, [']']) ∧
        Dot.unescape (string ++ ['"']) = some (vertex.label.toList, [])) ∧
      Dot.read graph.dotText = graph ∧
      ∀ other : Graph, other.Unspaced → graph.dotText = other.dotText → graph = other := by
  refine ⟨unspaced_ofNode, fun graph unspaced => ⟨?_, fun vertex _ => ?_, ?_, ?_⟩⟩
  · rw [Dot.split_dotText unspaced, Dot.lines]
    simp only [List.append_assoc, List.singleton_append]
  · exact ⟨Dot.escaped vertex.label, rfl, Dot.string?_escaped vertex.label.toList [']'],
      Dot.unescape_escape vertex.label.toList []⟩
  · exact Dot.read_dotText unspaced
  · intro other unspaced' same
    calc graph = Dot.read graph.dotText := (Dot.read_dotText unspaced).symm
      _ = Dot.read other.dotText := by rw [same]
      _ = other := Dot.read_dotText unspaced'

/-- A line end is not taken for a backslash before an `n`. -/
theorem dotText_decodable_backslash :
    let graph : Graph := ⟨[⟨"a", "\n\\"⟩, ⟨"b", "\""⟩], [⟨"a", "b"⟩]⟩
    let other : Graph := ⟨[⟨"a", "\\n\\"⟩, ⟨"b", "\""⟩], [⟨"a", "b"⟩]⟩
    graph.Unspaced ∧ other.Unspaced ∧ Dot.read graph.dotText = graph ∧
      graph.dotText ≠ other.dotText := by
  intro graph other
  have plain : IsUnspaced "a" ∧ IsUnspaced "b" := ⟨⟨by decide, by decide⟩, ⟨by decide, by decide⟩⟩
  have unspaced : graph.Unspaced :=
    ⟨by simp [graph, plain], by simp [graph, plain], by simp [graph, plain]⟩
  have unspaced' : other.Unspaced :=
    ⟨by simp [other, plain], by simp [other, plain], by simp [other, plain]⟩
  obtain ⟨-, -, read, determined⟩ := dotText_decodable.2 graph unspaced
  refine ⟨unspaced, unspaced', read, fun same => ?_⟩
  exact absurd (determined other unspaced' same) (by decide)

end TypedLisp.Graph
