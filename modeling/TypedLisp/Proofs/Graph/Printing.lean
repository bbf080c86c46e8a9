import TypedLisp.CommandLine.Session
import TypedLisp.Proofs.Grafting.Texts
import TypedLisp.Proofs.Graph.Rows
import TypedLisp.Proofs.Node.Skeletons

/-! Graphs and printed outlines determine programs.

Both are made of the skeleton of a tree alone. Conversely, if no leaf has a blank in
it, a printed line is the sketch of a node: the spaces before the name count the
depth, and those after it stand before the leaves. So the text has the sketches of
all nodes, and they have the skeleton. A program can be read again from the lexemes
of its skeleton, which leaves nothing but its lines open.
-/

set_option autoImplicit false

namespace TypedLisp

/-! ## Printed lines -/

namespace Sketch

def printed (entry : Sketch) : String :=
  String.join (List.replicate entry.depth "  ") ++
    (entry.kind.name ++ String.join (entry.leaves.map fun leaf => " (" ++ leaf ++ ")"))

def Plain (entry : Sketch) : Prop :=
  ∀ leaf ∈ entry.leaves, ∀ character ∈ leaf.toList, isBlank character = false

def shownLeaves (entry : Sketch) : List (List Char) :=
  entry.leaves.map fun leaf => (Graph.shownLeaf leaf).toList

theorem toList_indentation (depth : Nat) :
    (String.join (List.replicate depth "  ")).toList = List.replicate (2 * depth) ' ' := by
  induction depth with
  | zero => rfl
  | succ depth ih =>
    rw [List.replicate_succ, String.join_cons, String.toList_append, ih, Nat.mul_succ, Nat.add_comm,
      List.replicate_add]
    rfl

theorem toList_printed (entry : Sketch) :
    entry.printed.toList =
      List.replicate (2 * entry.depth) ' ' ++
        (entry.kind.name.toList ++ entry.shownLeaves.flatMap (' ' :: ·)) := by
  have bracket : " (".toList = ' ' :: "(".toList := rfl
  rw [printed, String.toList_append, toList_indentation]
  simp only [shownLeaves, Graph.shownLeaf, String.toList_append, String.toList_join, List.flatMap_map,
    bracket, List.cons_append]

theorem Plain.not_mem_shownLeaves {entry : Sketch} {blank : Char} (plain : entry.Plain)
    (isBlank' : isBlank blank) : ∀ piece ∈ entry.shownLeaves, blank ∉ piece := by
  intro piece member
  obtain ⟨leaf, listed, rfl⟩ := List.mem_map.mp member
  refine Graph.shownLeaf_not_mem (Graph.not_mem_of_not_blank isBlank' (plain leaf listed)) ?_
  exact Graph.not_mem_of_not_blank isBlank'
    (List.forall_mem_cons.mpr ⟨rfl, List.forall_mem_singleton.mpr rfl⟩)

theorem Plain.not_mem_printed {entry : Sketch} {blank : Char} (plain : entry.Plain)
    (isBlank' : isBlank blank) (other : blank ≠ ' ') : blank ∉ entry.printed.toList := by
  rw [toList_printed]
  simp only [List.mem_append, List.mem_replicate, List.mem_flatMap, List.mem_cons, not_or, not_and,
    not_exists]
  exact ⟨fun _ => other, Graph.not_mem_of_not_blank isBlank' (Graph.name_plain entry.kind),
    fun piece member => ⟨other, plain.not_mem_shownLeaves isBlank' piece member⟩⟩

theorem head?_name_append (kind : NodeKind) (more : List Char) :
    (kind.name.toList ++ more).head? ≠ some ' ' := by
  have table : NodeKind.all.all fun kind => !kind.name.toList.isEmpty := by decide
  have nonempty := List.all_eq_true.mp table kind (NodeKind.mem_all kind)
  have plain := Graph.name_plain kind
  cases name : kind.name.toList with
  | nil => simp [name] at nonempty
  | cons first rest =>
    rintro ⟨⟩
    have spaced := plain ' ' (name ▸ List.mem_cons_self)
    cases spaced

/-- A line is of one sketch only. -/
theorem Plain.eq_of_printed {entry other : Sketch} (plain : entry.Plain) (plain' : other.Plain)
    (same : entry.printed = other.printed) : entry = other := by
  have texts := congrArg String.toList same
  rw [toList_printed, toList_printed] at texts
  -- The name is the first thing that is no space. What follows is split at the spaces again.
  obtain ⟨spaces, behind⟩ := Text.replicate_append_inj (head?_name_append _ _) (head?_name_append _ _) texts
  have pieces := congrArg (Text.split ' ') behind
  rw [Text.split_append_flatMap (Graph.not_mem_of_not_blank rfl (Graph.name_plain _))
      (plain.not_mem_shownLeaves rfl),
    Text.split_append_flatMap (Graph.not_mem_of_not_blank rfl (Graph.name_plain _))
      (plain'.not_mem_shownLeaves rfl)] at pieces
  obtain ⟨names, shown⟩ := List.cons.inj pieces
  obtain ⟨depth, kind, leaves⟩ := entry
  obtain ⟨depth', kind', leaves'⟩ := other
  have depths : depth = depth' := Nat.eq_of_mul_eq_mul_left Nat.two_pos spaces
  have kinds : kind = kind' := NodeKind.name_injective (String.toList_inj.mp names)
  have listed : leaves = leaves' := by
    refine (List.map_inj_right fun leaf other same => ?_).mp shown
    exact Graph.shownLeaf_injective (String.toList_inj.mp same)
  rw [depths, kinds, listed]

end Sketch

theorem Node.LexemeLeaves.plain {tree : Node} (leaves : tree.LexemeLeaves) :
    ∀ entry ∈ tree.sketch, entry.Plain := by
  intro entry member
  obtain ⟨⟨depth, node⟩, listed, rfl⟩ := List.mem_map.mp member
  exact leaves.not_blank (List.mem_map_of_mem listed)

namespace Graph

/-! ## Graphs and texts of skeletons -/

theorem label_skeleton (node : Node) : node.skeleton.label = node.label := by
  rw [Node.label, Node.kind_skeleton, Node.leaves_skeleton]
  rfl

theorem visit_skeleton (number : Nat) (pending : List Pending) :
    visit number (pending.map fun entry => ⟨entry.parent, entry.node.skeleton⟩) =
      visit number pending := by
  induction number, pending using visit.induct with
  | case1 number => rfl
  | case2 number parent node rest identity ih =>
    have children : pendingChildren identity node.skeleton =
        (pendingChildren identity node).map fun entry => ⟨entry.parent, entry.node.skeleton⟩ := by
      simp [pendingChildren, Function.comp_def]
    rw [List.map_append, ← children] at ih
    rw [List.map_cons, visit, visit, ih, label_skeleton]

theorem ofNode_skeleton (tree : Node) : ofNode tree.skeleton = ofNode tree :=
  visit_skeleton 0 [⟨none, tree⟩]

theorem map_unbroken {text : List Char} (unbroken : '\n' ∉ text) :
    (text.map fun character => if character = '\n' then ' ' else character) = text := by
  refine (List.map_congr_left fun character member => if_neg ?_).trans (List.map_id text)
  rintro rfl
  exact unbroken member

theorem map_flatMap_unbroken {pieces : List (List Char)} (unbroken : ∀ piece ∈ pieces, '\n' ∉ piece) :
    ((pieces.flatMap ('\n' :: ·)).map fun character => if character = '\n' then ' ' else character) =
      pieces.flatMap (' ' :: ·) := by
  induction pieces with
  | nil => rfl
  | cons piece pieces ih =>
    obtain ⟨own, others⟩ := List.forall_mem_cons.mp unbroken
    rw [List.flatMap_cons, List.flatMap_cons, List.map_append, ih others, List.map_cons, if_pos rfl,
      map_unbroken own]

theorem indented_label {node : Node} (unbroken : ∀ leaf ∈ node.leaves, '\n' ∉ leaf.toList)
    (depth : Nat) (identity : String) :
    OutlineLine.indented ⟨depth, identity, node.label⟩ =
      Sketch.printed ⟨depth, node.kind, node.leaves⟩ := by
  have name : '\n' ∉ node.kind.name.toList := not_mem_of_not_blank rfl (name_plain node.kind)
  have leaves : ∀ piece ∈ node.leaves.map fun leaf => (shownLeaf leaf).toList, '\n' ∉ piece := by
    intro piece member
    obtain ⟨leaf, listed, rfl⟩ := List.mem_map.mp member
    exact shownLeaf_not_mem (unbroken leaf listed) (by decide)
  rw [← String.toList_inj, Sketch.toList_printed, OutlineLine.indented, String.toList_append,
    Sketch.toList_indentation, String.toList_map, toList_label, List.map_append, map_unbroken name,
    map_flatMap_unbroken leaves]
  rfl

theorem outlineText_ofNode {tree : Node}
    (unbroken : ∀ node ∈ tree.nodes, ∀ leaf ∈ node.leaves, '\n' ∉ leaf.toList) :
    (ofNode tree).outlineText = String.join (tree.sketch.map fun entry => entry.printed ++ "\n") := by
  have lines : (ofNode tree).outline.map (fun row => row.indented ++ "\n") =
      tree.preorder.map fun entry => Sketch.printed ⟨entry.1, entry.2.kind, entry.2.leaves⟩ ++ "\n" :=
    map_outline_ofNode fun entry member _ =>
      congrArg (· ++ "\n") (indented_label (unbroken entry.2 (List.mem_map_of_mem member)) entry.1 _)
  rw [outlineText, lines, Node.sketch, Node.sketches, List.map_map]
  rfl

section
variable {tree other : Node}

theorem toList_outlineText (leaves : tree.LexemeLeaves) :
    (ofNode tree).outlineText.toList =
      (tree.sketch.map fun entry => entry.printed.toList).flatMap (· ++ ['\n']) := by
  have unbroken : ∀ node ∈ tree.nodes, ∀ leaf ∈ node.leaves, '\n' ∉ leaf.toList :=
    fun node member leaf listed => not_mem_of_not_blank rfl (leaves.not_blank member leaf listed)
  have ended : "\n".toList = ['\n'] := rfl
  simp only [outlineText_ofNode unbroken, String.toList_join, List.flatMap_map, String.toList_append,
    ended]

theorem lines_outlineText (leaves : tree.LexemeLeaves) :
    Text.lines (ofNode tree).outlineText.toList = tree.sketch.map fun entry => entry.printed.toList := by
  have absent {blank : Char} (isBlank' : isBlank blank) (other : blank ≠ ' ') :
      ∀ line ∈ tree.sketch.map fun entry => entry.printed.toList, blank ∉ line := by
    intro line member
    obtain ⟨entry, listed, rfl⟩ := List.mem_map.mp member
    exact (leaves.plain entry listed).not_mem_printed isBlank' other
  rw [toList_outlineText leaves]
  exact Text.lines_flatMap_append (absent rfl (by decide)) (absent rfl (by decide))

theorem eq_of_printed {entries others : List Sketch} (plain : ∀ entry ∈ entries, entry.Plain)
    (plain' : ∀ entry ∈ others, entry.Plain)
    (same : (entries.map fun entry => entry.printed.toList) =
      others.map fun entry => entry.printed.toList) : entries = others := by
  induction entries generalizing others with
  | nil => exact (List.map_eq_nil_iff.mp same.symm).symm
  | cons entry entries ih =>
    obtain ⟨other, others, rfl, first, rest⟩ := List.map_eq_cons_iff.mp same.symm
    obtain ⟨own, plain⟩ := List.forall_mem_cons.mp plain
    obtain ⟨own', plain'⟩ := List.forall_mem_cons.mp plain'
    rw [own.eq_of_printed own' (String.toList_inj.mp first.symm), ih plain plain' rest.symm]

theorem skeleton_of_outlineText (leaves : tree.LexemeLeaves) (leaves' : other.LexemeLeaves)
    (same : (ofNode tree).outlineText = (ofNode other).outlineText) :
    tree.skeleton = other.skeleton := by
  have lines := congrArg (fun text : String => Text.lines text.toList) same
  simp only [lines_outlineText leaves, lines_outlineText leaves'] at lines
  exact Node.skeleton_of_sketch (eq_of_printed leaves.plain leaves'.plain lines)

end

/-! ## Programs -/

/-- Programs of one skeleton have the same lexemes, from which they are read. -/
theorem unlined_of_skeleton {first second : String} {tree other : Node}
    (parsed : parse first = .ok tree) (parsed' : parse second = .ok other)
    (same : tree.skeleton = other.skeleton) : tree.unlined = other.unlined := by
  obtain ⟨tokens, lexes, program⟩ := program_of_parse parsed
  obtain ⟨shape, wellTyped, shallow⟩ := shape_of_parse parsed'
  have written : tokens.map Token.written = other.lexemes :=
    calc tokens.map Token.written = tree.lexemes := program.writes
      _ = tree.skeleton.lexemes := (Node.lexemes_skeleton tree).symm
      _ = other.skeleton.lexemes := by rw [same]
      _ = other.lexemes := Node.lexemes_skeleton other
  obtain ⟨again, read, unlined⟩ := parse_of_written lexes written shape wellTyped shallow
  cases parsed.symm.trans read
  exact unlined

theorem run_prints {m : Type → Type} [Monad m] [LawfulMonad m] (host : Host m)
    {options : CommandLine.Options} (program : options.tokens = false) (plain : options.noViewer) :
    ∃ respond : Except FileError CommandLine.Source → m CommandLine.Response,
      CommandLine.run host options = CommandLine.fetchSource host options >>= respond ∧
      ∀ source tree stem, parse source = .ok tree → ∃ draw : m (List String),
        respond (.ok ⟨source, stem⟩) = (⟨0, (ofNode tree).outlineText, ·⟩) <$> draw := by
  refine ⟨_, rfl, fun source tree stem parsed => ?_⟩
  cases drawing : options.dotDirectory with
  | none =>
    refine ⟨pure [], ?_⟩
    simp [CommandLine.present, program, plain, parsed, drawing]
  | some directory =>
    refine ⟨CommandLine.drawInto host directory stem (ofNode tree), ?_⟩
    simp [CommandLine.present, program, plain, parsed, drawing]

/-- The graphs of two programs are equal if and only if the programs are, up to lines, and so are the
texts that are printed of them, one line for each node. A run that fetches such a source prints its text. -/
theorem graph_determines_program {first second : String} {tree other : Node}
    (parsed : parse first = .ok tree) (parsed' : parse second = .ok other) :
    (ofNode tree = ofNode other ↔ tree.unlined = other.unlined) ∧
    ((ofNode tree).outlineText = (ofNode other).outlineText ↔ tree.unlined = other.unlined) ∧
    ((ofNode tree).outlineText = String.join (tree.sketch.map fun entry => entry.printed ++ "\n") ∧
      Text.lines (ofNode tree).outlineText.toList = tree.sketch.map (fun entry => entry.printed.toList) ∧
      tree.sketch.length = tree.size) ∧
    ∀ (m : Type → Type) [Monad m] [LawfulMonad m] (host : Host m) (options : CommandLine.Options),
      options.tokens = false → options.noViewer →
      ∃ respond : Except FileError CommandLine.Source → m CommandLine.Response,
        CommandLine.run host options = CommandLine.fetchSource host options >>= respond ∧
        ∀ stem, ∃ draw : m (List String),
          respond (.ok ⟨first, stem⟩) = (⟨0, (ofNode tree).outlineText, ·⟩) <$> draw := by
  obtain ⟨shape, -⟩ := shape_of_parse parsed
  obtain ⟨shape', -⟩ := shape_of_parse parsed'
  have graphs (same : tree.unlined = other.unlined) : ofNode tree = ofNode other := by
    rw [← ofNode_skeleton tree, Node.skeleton_of_unlined same, ofNode_skeleton]
  have back (same : (ofNode tree).outlineText = (ofNode other).outlineText) :
      tree.unlined = other.unlined :=
    unlined_of_skeleton parsed parsed'
      (skeleton_of_outlineText shape.lexemeLeaves shape'.lexemeLeaves same)
  refine ⟨⟨fun same => back (congrArg outlineText same), graphs⟩,
    ⟨back, fun same => congrArg outlineText (graphs same)⟩,
    ⟨outlineText_ofNode (unbroken_of_parse parsed), lines_outlineText shape.lexemeLeaves,
      Node.length_sketch tree⟩, ?_⟩
  intro m _ _ host options program plain
  obtain ⟨respond, run, prints⟩ := run_prints host program plain
  exact ⟨respond, run, fun stem => prints first tree stem parsed⟩

theorem graph_determines_program_respelled :
    ∃ tree other, parse "(+ 1 x)" = .ok tree ∧ parse "(+ 01\nx)" = .ok other ∧
      ofNode tree = ofNode other ∧ (ofNode tree).outlineText = (ofNode other).outlineText ∧
      ∃ draw : StateM Disk (List String),
        CommandLine.run (Host.ofDisk .empty) { expression := some "(+ 1 x)", noViewer := true } =
          (⟨0, (ofNode other).outlineText, ·⟩) <$> draw := by
  have same : (parse "(+ 1 x)").map Node.unlined = (parse "(+ 01\nx)").map Node.unlined := by
    decide +kernel
  have taken : (parse "(+ 1 x)").isOk ∧ (parse "(+ 01\nx)").isOk := by decide +kernel
  cases parsed : parse "(+ 1 x)" with
  | error error =>
    rw [parsed] at taken
    cases taken.1
  | ok tree =>
    cases parsed' : parse "(+ 01\nx)" with
    | error error =>
      rw [parsed'] at taken
      cases taken.2
    | ok other =>
      rw [parsed, parsed'] at same
      obtain ⟨graphs, texts, -, runs⟩ := graph_determines_program parsed parsed'
      have unlined : tree.unlined = other.unlined := Except.ok.inj same
      obtain ⟨respond, run, prints⟩ := runs (StateM Disk) (.ofDisk .empty)
        { expression := some "(+ 1 x)", noViewer := true } rfl rfl
      obtain ⟨draw, printed⟩ := prints "expr"
      rw [texts.mpr unlined] at printed
      refine ⟨tree, other, rfl, rfl, graphs.mpr unlined, texts.mpr unlined, draw, ?_⟩
      exact run.trans printed

end Graph

end TypedLisp
