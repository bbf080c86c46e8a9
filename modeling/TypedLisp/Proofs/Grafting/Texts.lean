import TypedLisp.Proofs.Grafting.Types
import TypedLisp.Proofs.Lexing.Cutting
import TypedLisp.Proofs.Reading.Agreement

/-! Texts with an identifier in place of an expression.

The tokens of an expression stand together, between those written before it and
those written after it. With a name in their place, kept apart by blanks, the tokens
are those that the tree is written with once the name is grafted in; and that tree
has a documented shape, is well typed and nests no deeper, so it is read.
-/

set_option autoImplicit false

namespace TypedLisp

open Grammar

/-! ## The tree -/

theorem readable_graft {source : String} {tree node : Node} {path : List Nat} {name : String}
    (parsed : parse source = .ok tree) (found : tree.descend? path = some node)
    (expression : node.kind = .expression) (word : Word name.toList)
    (free : capitals name.toList ∉ reservedWords.map Prod.fst) (line : Nat) :
    Shape.Program (tree.graft path (.expression (.identifier name line))) ∧
      (tree.graft path (.expression (.identifier name line))).WellTyped ∧
      (tree.graft path (.expression (.identifier name line))).nesting ≤ 128 := by
  obtain ⟨shape, wellTyped, shallow⟩ := shape_of_parse parsed
  obtain ⟨tokens, -, program⟩ := program_of_parse parsed
  have other : Shape.Expression (.expression (.identifier name line)) :=
    .identifier (.intro ⟨rfl, rfl, rfl⟩ (.intro ⟨rfl, rfl, rfl⟩ word free))
  have otherTyped : (Node.expression (.identifier name line)).WellTyped :=
    Node.wellTyped_iff.mpr ⟨rfl, List.forall_mem_singleton.mpr
      (Node.wellTyped_iff.mpr ⟨rfl, List.forall_mem_nil _⟩)⟩
  refine ⟨(shape.admits path node found expression).2 _ other, ?_, ?_⟩
  · exact (wellTyped.graft (layered_of_program program shape) found expression otherTyped rfl).1
  · exact Nat.le_trans (Node.nestingFrom_graft_le found (fun _ => Nat.zero_le _) false) shallow

/-! ## The tokens -/

theorem resembles_of_written {first second : String} {tokens others : List Token}
    (lexes : tokenize first = .ok tokens) (lexes' : tokenize second = .ok others)
    (same : tokens.map Token.written = others.map Token.written) :
    (Lexer.ofSource first).read.Resembles (Lexer.ofSource second).read := by
  have lexed := lexed_of_tokenize lexes
  have lexed' := lexed_of_tokenize lexes'
  obtain ⟨intact, rfl⟩ := tokenize_eq_ok_iff.mp lexes
  obtain ⟨intact', rfl⟩ := tokenize_eq_ok_iff.mp lexes'
  rw [← List.forall₂_eq_eq_eq, List.forall₂_map_left_iff, List.forall₂_map_right_iff] at same
  refine resembles_of_agrees (List.forall₂_iff_get.mpr ⟨same.length_eq, fun index bound bound' => ?_⟩)
    (by rw [intact, intact'])
  exact agrees_of_written (lexed _ (List.get_mem ..)) (lexed' _ (List.get_mem ..))
    (same.get bound bound')

theorem parse_of_written {source : String} {tokens : List Token} {tree : Node}
    (lexes : tokenize source = .ok tokens) (written : tokens.map Token.written = tree.lexemes)
    (shape : Shape.Program tree) (wellTyped : tree.WellTyped) (shallow : tree.nesting ≤ 128) :
    ∃ parsed, parse source = .ok parsed ∧ parsed.unlined = tree.unlined := by
  obtain ⟨spaced, spacedParsed, same⟩ := parse_of_shape shape wellTyped shallow (spaced_intercalate _)
  obtain ⟨others, lexes', program⟩ := program_of_parse spacedParsed
  have written' : others.map Token.written = tree.lexemes :=
    calc others.map Token.written = spaced.lexemes := program.writes
      _ = spaced.unlined.lexemes := (Node.lexemes_mapLines _ spaced).symm
      _ = tree.unlined.lexemes := by rw [same]
      _ = tree.lexemes := Node.lexemes_mapLines _ tree
  obtain ⟨-, result⟩ := resembles_of_written lexes' lexes (written'.trans written.symm)
  have spacedResult : (Lexer.ofSource (" ".intercalate tree.lexemes)).read.result = .ok spaced :=
    spacedParsed
  rw [spacedResult] at result
  cases parsed : parse source with
  | error error =>
    have failed : (Lexer.ofSource source).read.result = .error error := parsed
    rw [failed] at result
    cases result
  | ok other =>
    have read : (Lexer.ofSource source).read.result = .ok other := parsed
    rw [read] at result
    cases result with
    | ok unlined => exact ⟨other, rfl, unlined.symm.trans same⟩

/-! ## The text -/

/-- A text with the tokens of one node of its tree between those before it and those after it. Blanks go
with the token that they stand before. -/
inductive Frames (tree node : Node) (path : List Nat) (before own after : String) : Prop
  | intro {lead tokens trail : List Token} {line middle last : Nat} {rest : List Char} :
      Tiles 1 (before ++ own ++ after).toList lead line (own ++ after).toList →
      Tiles line (own ++ after).toList tokens middle after.toList →
      Tiles middle after.toList trail last rest → AllBlank rest →
      lead.map Token.written = tree.lexemesBefore path → tokens.map Token.written = node.lexemes →
      Frames tree node path before own after

-- The tokens are cut where the node starts and where it ends, and the text is cut as they are.
theorem exists_frames {source : String} {tree node : Node} {path : List Nat}
    (parsed : parse source = .ok tree) (found : tree.descend? path = some node) :
    ∃ before own after, source = before ++ own ++ after ∧ Frames tree node path before own after := by
  obtain ⟨tokens, lexes, program⟩ := program_of_parse parsed
  obtain ⟨more, split, -⟩ := Node.lexemes_graft found
  obtain ⟨lead, later, rfl, leadWritten, laterWritten⟩ :=
    List.map_eq_append_iff.mp (program.writes.trans split)
  obtain ⟨own, trail, rfl, ownWritten, -⟩ := List.map_eq_append_iff.mp laterWritten
  obtain ⟨last, rest, tiles, ends⟩ := tokenize_eq_ok_iff_tiles.mp lexes
  obtain ⟨line, fromOwn, leads, tiles⟩ := tiles.cut
  obtain ⟨middle, fromTrail, owns, trails⟩ := tiles.cut
  obtain ⟨before, whole⟩ := leads.exists_append
  obtain ⟨taken, rfl⟩ := owns.exists_append
  have ofList (text : List Char) : ∃ string : String, text = string.toList :=
    ⟨.ofList text, String.toList_ofList.symm⟩
  obtain ⟨before, rfl⟩ := ofList before
  obtain ⟨taken, rfl⟩ := ofList taken
  obtain ⟨after, rfl⟩ := ofList fromTrail
  rw [← String.toList_append] at whole leads owns
  rw [← String.toList_append, String.toList_inj, ← String.append_assoc] at whole
  subst whole
  exact ⟨before, taken, after, rfl, .intro leads owns trails ends leadWritten ownWritten⟩

theorem tokenize_replaced {text : String} {before own after name gap gap' : List Char}
    {lead trail : List Token} {line middle last : Nat} {rest : List Char} (word : Word name)
    (free : capitals name ∉ reservedWords.map Prod.fst)
    (leads : Tiles 1 (before ++ (own ++ after)) lead line (own ++ after))
    (trails : Tiles middle after trail last rest) (ends : AllBlank rest)
    (blank : AllBlank gap) (blank' : AllBlank gap') (apart : before = [] ∨ StartsBlank gap)
    (apart' : gap' ++ after = [] ∨ StartsBlank (gap' ++ after))
    (replaced : text.toList = before ++ (gap ++ (name ++ (gap' ++ after)))) :
    ∃ tokens, tokenize text = .ok tokens ∧
      tokens.map Token.written =
        lead.map Token.written ++ (String.ofList name :: trail.map Token.written) := by
  obtain ⟨trail', last', rest', trails', ends', same⟩ :=
    trails.elsewhere ends blank' (line + gap.count '\n')
  have named : Tiles line (gap ++ (name ++ (gap' ++ after)))
      (⟨.identifier, String.ofList name, line + gap.count '\n'⟩ :: trail') last' rest' :=
    .token blank ((IsLexeme.word word).longest apart') (.identifier word free) trails'
  have leads' : Tiles 1 (before ++ (gap ++ (name ++ (gap' ++ after)))) lead line
      (gap ++ (name ++ (gap' ++ after))) :=
    leads.alone.onward (apart.imp_right (·.append _))
  have written : trail'.map Token.written = trail.map Token.written := by
    have unlined (tokens : List Token) :
        (tokens.map (Token.mapLine fun _ => 0)).map Token.written = tokens.map Token.written :=
      List.map_map
    rw [← unlined, same, unlined]
  have whole := leads'.trans named
  rw [← replaced] at whole
  refine ⟨_, tokenize_eq_ok_iff_tiles.mpr ⟨last', rest', whole, ends'⟩, ?_⟩
  rw [List.map_append, List.map_cons, written]
  rfl

/-- The text around a node is read with a name in the place of that node. -/
theorem Frames.replace {tree node : Node} {path : List Nat} {before own after name gap gap' : String}
    (frames : Frames tree node path before own after)
    (parsed : parse (before ++ own ++ after) = .ok tree) (found : tree.descend? path = some node)
    (expression : node.kind = .expression) (word : Word name.toList)
    (free : capitals name.toList ∉ reservedWords.map Prod.fst) (blank : AllBlank gap.toList)
    (blank' : AllBlank gap'.toList) (apart : before = "" ∨ StartsBlank gap.toList)
    (apart' : gap' ++ after = "" ∨ StartsBlank (gap' ++ after).toList) :
    ∃ loosened, parse (before ++ gap ++ name ++ gap' ++ after) = .ok loosened ∧
      loosened.unlined = (tree.graft path (.expression (.identifier name node.line))).unlined := by
  obtain ⟨shape, wellTyped, shallow⟩ := readable_graft parsed found expression word free node.line
  cases frames with
  | @intro lead tokens trail line middle last rest leads owns trails ends leadWritten ownWritten =>
    obtain ⟨others, lexes, written⟩ := tokenize_replaced word free (by simpa using leads) trails ends
      blank blank' (by simpa using apart) (by simpa using apart')
      (by simp : (before ++ gap ++ name ++ gap' ++ after).toList = _)
    refine parse_of_written lexes ?_ shape wellTyped shallow
    obtain ⟨tokens', lexes', program⟩ := program_of_parse parsed
    have whole := tokenize_eq_ok_iff_tiles.mpr ⟨last, rest, leads.trans (owns.trans trails), ends⟩
    cases lexes'.symm.trans whole
    obtain ⟨more, split, grafted⟩ := Node.lexemes_graft found
    have trailWritten : trail.map Token.written = more := by
      have all := program.writes.trans split
      rw [List.map_append, List.map_append, leadWritten, ownWritten] at all
      exact List.append_cancel_left (List.append_cancel_left all)
    rw [written, leadWritten, trailWritten, grafted, String.ofList_toList]
    rfl

/-- A program may have any name that is not reserved in place of any expression. It is read as the same
tree with the name in that place, where a list of which it is a member has the type its members
share then. -/
theorem parse_graft_identifier {source : String} {tree node : Node} {path : List Nat}
    (parsed : parse source = .ok tree) (found : tree.descend? path = some node)
    (expression : node.kind = .expression) :
    ∃ before own after : String, source = before ++ own ++ after ∧
      Frames tree node path before own after ∧
      ∀ name gap gap' : String, Word name.toList →
        capitals name.toList ∉ reservedWords.map Prod.fst →
        AllBlank gap.toList → AllBlank gap'.toList → before = "" ∨ StartsBlank gap.toList →
        gap' ++ after = "" ∨ StartsBlank (gap' ++ after).toList →
        ∃ loosened, parse (before ++ gap ++ name ++ gap' ++ after) = .ok loosened ∧
          loosened.unlined =
            (tree.graft path (.expression (.identifier name node.line))).unlined := by
  obtain ⟨before, own, after, rfl, frames⟩ := exists_frames parsed found
  refine ⟨before, own, after, rfl, frames, ?_⟩
  intro name gap gap' word free blank blank' apart apart'
  exact frames.replace parsed found expression word free blank blank' apart apart'

/-- With a name in place of a number the list around it has no particular type any more. -/
theorem parse_graft_identifier_member :
    ∃ before own after, "(+ 1 2 x)" = before ++ own ++ after ∧
      ∃ tree node loosened, parse "(+ 1 2 x)" = .ok tree ∧ tree.descend? [0, 0, 0, 1, 0] = some node ∧
        node.lexemes = ["2"] ∧ parse (before ++ " " ++ "y" ++ " " ++ after) = .ok loosened ∧
        (tree.descend? [0, 0, 0, 1]).map Node.valueType = some (some .number) ∧
        (loosened.unlined.descend? [0, 0, 0, 1]).map Node.valueType = some (some .unconstrained) := by
  have blank : AllBlank " ".toList := List.all_eq_true.mp (by decide : " ".toList.all isBlank)
  have apart (more : String) : StartsBlank (" " ++ more).toList := by
    rw [String.toList_append]
    exact ⟨' ', more.toList, rfl, by decide⟩
  have word : Word "y".toList :=
    (.intro (by decide) (List.forall_mem_nil _) : Word ['y'])
  have list : ((parse "(+ 1 2 x)").toOption.bind (·.descend? [0, 0, 0, 1])).map Node.valueType =
      some (some .number) := by decide +kernel
  have member : ((parse "(+ 1 2 x)").toOption.bind (·.descend? [0, 0, 0, 1, 0])).map
      (fun node => (node.kind, node.lexemes, node.line)) = some (.expression, ["2"], 1) := by
    decide +kernel
  have grafted : ((parse "(+ 1 2 x)").toOption.bind fun tree =>
      (tree.graft [0, 0, 0, 1, 0] (.expression (.identifier "y" 1))).unlined.descend?
        [0, 0, 0, 1]).map Node.valueType = some (some .unconstrained) := by decide +kernel
  cases parsed : parse "(+ 1 2 x)" with
  | error error =>
    rw [parsed] at list
    cases list
  | ok tree =>
    rw [parsed] at list member grafted
    obtain ⟨node, found, same⟩ := Option.map_eq_some_iff.mp member
    obtain ⟨expression, lexemes, line⟩ : node.kind = .expression ∧ node.lexemes = ["2"] ∧
      node.line = 1 := by simpa using same
    obtain ⟨before, own, after, whole, -, replace⟩ := parse_graft_identifier parsed found expression
    obtain ⟨loosened, taken, unlined⟩ := replace "y" " " " " word (by decide) blank blank
      (.inr (apart "")) (.inr (apart after))
    refine ⟨before, own, after, whole, tree, node, loosened, rfl, found, lexemes, taken, list, ?_⟩
    rw [unlined, line]
    exact grafted

end TypedLisp
