import TypedLisp.Proofs.Grammar.Unambiguous
import TypedLisp.Proofs.Reading.Adequacy
import TypedLisp.Proofs.Reading.Sequencing
import TypedLisp.Proofs.Writing.Derivable
import TypedLisp.Proofs.Writing.Shaped

/-! What is read, and what a tree keeps of its text.

The tokens of a text that is read derive one tree, of a documented shape. Two texts are
read to trees that differ in lines only if their tokens are the same but for lines,
letter case of keywords and zeros of numbers. And the trees that are read are the
well-typed ones of the documented shapes within the nesting limit: each is read, up to
lines, from its own lexemes with blanks between them.
-/

set_option autoImplicit false

namespace TypedLisp

open Grammar

/-! ## What is read -/

theorem lexed_of_tokenize {source : String} {tokens : List Token} (lexes : tokenize source = .ok tokens) :
    ∀ token ∈ tokens, IsLexeme token.lexeme.toList ∧ Classifies token.lexeme.toList token.kind := by
  obtain ⟨line, rest, tiles, -⟩ := tokenize_eq_ok_iff_tiles.mp lexes
  exact tiles.forall_token

theorem shape_of_program {source : String} {tokens : List Token} {tree : Node}
    (lexes : tokenize source = .ok tokens) (program : Program tokens tree) : Shape.Program tree :=
  program.shaped fun token member => (lexed_of_tokenize lexes token member).2

/-- What is read has a documented shape, is well typed and within the limit. -/
theorem shape_of_parse {source : String} {tree : Node} (parsed : parse source = .ok tree) :
    Shape.Program tree ∧ tree.WellTyped ∧ tree.nesting ≤ 128 := by
  obtain ⟨tokens, lexes, program, wellTyped, shallow⟩ := parse_eq_ok_iff.mp parsed
  exact ⟨shape_of_program lexes program, wellTyped, shallow⟩

/-- A text is read to the tree its tokens derive. It is the only one they derive, and has one of the
documented shapes. -/
theorem parse_adequate (source : String) (tree : Node) :
    (parse source = .ok tree ↔
      ∃ tokens, tokenize source = .ok tokens ∧ Program tokens tree ∧ tree.WellTyped ∧
        tree.nesting ≤ 128) ∧
    (∀ tokens, tokenize source = .ok tokens → Program tokens tree → Shape.Program tree) ∧
    ∀ tokens other, Program tokens tree → Program tokens other → other = tree :=
  ⟨parse_eq_ok_iff, fun _ lexes program => shape_of_program lexes program,
    fun _ _ program program' => program'.unique program⟩

theorem parse_adequate_negation :
    ∃ tokens tree, tokenize "(not #t)" = .ok tokens ∧ parse "(not #t)" = .ok tree ∧
      Program tokens tree ∧ Shape.Program tree ∧ ∀ other, Program tokens other → other = tree := by
  have taken : (parse "(not #t)").isOk := by decide +kernel
  cases parsed : parse "(not #t)" with
  | error error =>
    rw [parsed] at taken
    cases taken
  | ok tree =>
    obtain ⟨adequate, shaped, alone⟩ := parse_adequate "(not #t)" tree
    obtain ⟨tokens, lexes, program, -, -⟩ := adequate.mp parsed
    exact ⟨tokens, tree, lexes, rfl, program, shaped tokens lexes program,
      fun other => alone tokens other program⟩

/-! ## Tokens of equal trees -/

theorem spelled_written {token : Token} (isLexeme : IsLexeme token.lexeme.toList)
    (classifies : Classifies token.lexeme.toList token.kind) :
    Token.IsSpelled ⟨token.kind, token.written, 0⟩ := by
  obtain ⟨kind, lexeme, line⟩ := token
  cases kind with
  | operator operation => exact spelled_operator operation
  | leftParen => exact spelled_opening
  | rightParen => exact spelled_closing
  | number value =>
    obtain ⟨low, high⟩ := classifies.number_inv
    exact spelled_number low high
  | boolean value => exact spelled_boolean value
  | identifier | printNum | printBool => exact ⟨isLexeme, classifies, rfl⟩
  | define => exact spelled_define
  | function => exact spelled_function
  | conditional => exact spelled_conditional

/-- Tokens of one kind, values included; the text of a name or a print keyword counts as well. -/
structure Token.Agrees (token other : Token) : Prop where
  kind : token.kind = other.kind
  lexeme : token.kind ∈ [.identifier, .printNum, .printBool] → token.lexeme = other.lexeme

theorem agrees_of_written {token other : Token}
    (lexed : IsLexeme token.lexeme.toList ∧ Classifies token.lexeme.toList token.kind)
    (lexed' : IsLexeme other.lexeme.toList ∧ Classifies other.lexeme.toList other.kind)
    (same : token.written = other.written) : token.Agrees other := by
  -- What is written is a lexeme of the same kind, and a lexeme has one kind.
  have kind : token.kind = other.kind := by
    have spelled := spelled_written lexed.1 lexed.2
    have spelled' := spelled_written lexed'.1 lexed'.2
    rw [same] at spelled
    have own := spelled.isLexeme.ofLexeme_eq_ok_iff.mpr spelled.classifies
    have own' := spelled'.isLexeme.ofLexeme_eq_ok_iff.mpr spelled'.classifies
    exact Except.ok.inj (own.symm.trans own')
  refine ⟨kind, fun kept => ?_⟩
  unfold Token.written at same
  rw [← kind] at same
  simp only [List.mem_cons, List.not_mem_nil, or_false] at kept
  rcases kept with kept | kept | kept <;> simpa only [kept] using same

theorem tokens_of_unlined_eq {first second : String} {tree other : Node}
    (parsed : parse first = .ok tree) (parsed' : parse second = .ok other)
    (same : tree.unlined = other.unlined) :
    ∃ tokens others, tokenize first = .ok tokens ∧ tokenize second = .ok others ∧
      tokens.length = others.length ∧
      ∀ (index : Nat) (token other : Token), tokens[index]? = some token → others[index]? = some other →
        token.Agrees other := by
  obtain ⟨tokens, lexes, program⟩ := program_of_parse parsed
  obtain ⟨others, lexes', program'⟩ := program_of_parse parsed'
  have written : tokens.map Token.written = others.map Token.written :=
    calc tokens.map Token.written = tree.lexemes := program.writes
      _ = tree.unlined.lexemes := (Node.lexemes_mapLines _ tree).symm
      _ = other.unlined.lexemes := by rw [same]
      _ = other.lexemes := Node.lexemes_mapLines _ other
      _ = others.map Token.written := program'.writes.symm
  refine ⟨tokens, others, lexes, lexes', by simpa using congrArg List.length written, ?_⟩
  intro index token other found found'
  have pair := congrArg (·[index]?) written
  simp only [List.getElem?_map, found, found', Option.map_some, Option.some.injEq] at pair
  exact agrees_of_written (lexed_of_tokenize lexes token (List.mem_of_getElem? found))
    (lexed_of_tokenize lexes' other (List.mem_of_getElem? found')) pair

/-! ## Trees read from their lexemes -/

theorem parse_of_unlined {source : String} {tokens : List Token} {tree : Node}
    (lexes : tokenize source = .ok tokens) (program : Program (tokens.map (.mapLine fun _ => 0)) tree)
    (wellTyped : tree.WellTyped) (shallow : tree.nesting ≤ 128) :
    ∃ parsed, parse source = .ok parsed ∧ parsed.unlined = tree := by
  obtain ⟨last, ended, read⟩ := program.reads
  have none : tree.faultsFrom 0 false = [] :=
    (Node.faultsFrom_eq_nil_iff tree).mpr ⟨shallow, program.covers.wellTyped_iff.mp wellTyped⟩
  -- The reader treats the tokens where they stand as it treats them on no line, up to lines.
  have moved := Reader.feed_relocate (fun _ => 0) [] Reader.start tokens
  have start : Reader.start.relocate (fun _ => 0) [] = Reader.start := rfl
  rw [start, read, none, Reader.firstOr_nil] at moved
  cases taken : Reader.start.feed tokens with
  | error error =>
    rw [taken] at moved
    cases moved
  | ok reader =>
    rw [taken] at moved
    obtain rfl := Except.ok.inj moved
    rw [Reader.program?_mapLines] at ended
    obtain ⟨parsed, ended, same⟩ := Option.map_eq_some_iff.mp ended
    obtain ⟨intact, rfl⟩ := tokenize_eq_ok_iff.mp lexes
    refine ⟨parsed, ?_, same⟩
    rw [parse_eq_outcome]
    exact Reader.outcome_eq_ok_iff.mpr ⟨reader, taken, intact, ended⟩

theorem parse_of_shape {tree : Node} (shape : Shape.Program tree) (wellTyped : tree.WellTyped)
    (shallow : tree.nesting ≤ 128) {text : String} (spaced : Spaced text.toList tree.lexemes) :
    ∃ parsed, parse text = .ok parsed ∧ parsed.unlined = tree.unlined := by
  obtain ⟨tokens, spells, program⟩ := shape.derivable wellTyped
  obtain ⟨tokens', lexes, same⟩ := tokenize_of_spaced spaced spells
  refine parse_of_unlined lexes (same ▸ program) ((Node.wellTyped_mapLines _).mpr wellTyped) ?_
  rw [Node.unlined, Node.nesting_mapLines]
  exact shallow

theorem parse_loses_layout :
    (∀ first second tree other, parse first = .ok tree → parse second = .ok other →
      tree.unlined = other.unlined →
      ∃ tokens others, tokenize first = .ok tokens ∧ tokenize second = .ok others ∧
        tokens.length = others.length ∧
        ∀ (index : Nat) (token other : Token), tokens[index]? = some token →
          others[index]? = some other → token.Agrees other) ∧
    ∀ tree, Shape.Program tree → tree.WellTyped → tree.nesting ≤ 128 →
      Spaced (" ".intercalate tree.lexemes).toList tree.lexemes ∧
      ∀ text : String, Spaced text.toList tree.lexemes →
        ∃ parsed, parse text = .ok parsed ∧ parsed.unlined = tree.unlined :=
  ⟨fun _ _ _ _ parsed parsed' same => tokens_of_unlined_eq parsed parsed' same,
    fun tree shape wellTyped shallow =>
      ⟨spaced_intercalate tree.lexemes, fun _ => parse_of_shape shape wellTyped shallow⟩⟩

theorem parse_loses_layout_sum :
    ∃ tree other, parse "(+ 1 x)" = .ok tree ∧ parse "(+ 01\nx)" = .ok other ∧
      (∃ tokens others, tokenize "(+ 1 x)" = .ok tokens ∧ tokenize "(+ 01\nx)" = .ok others ∧
        tokens.length = others.length) ∧
      ∃ parsed, parse (" ".intercalate tree.lexemes) = .ok parsed ∧ parsed.unlined = tree.unlined := by
  have same : (parse "(+ 1 x)").map Node.unlined = (parse "(+ 01\nx)").map Node.unlined := by
    decide +kernel
  have taken : (parse "(+ 1 x)").isOk ∧ (parse "(+ 01\nx)").isOk := by decide +kernel
  cases parsed : parse "(+ 1 x)" with
  | error error =>
    rw [parsed] at taken
    cases taken.1
  | ok tree =>
    cases parsed' : parse "(+ 01\nx)" with
    | error error =>
      rw [parsed'] at taken
      cases taken.2
    | ok other =>
      rw [parsed, parsed'] at same
      obtain ⟨back, forth⟩ := parse_loses_layout
      obtain ⟨tokens, others, lexes, lexes', length, -⟩ :=
        back _ _ tree other parsed parsed' (Except.ok.inj same)
      obtain ⟨shape, wellTyped, shallow⟩ := shape_of_parse parsed
      obtain ⟨spaced, read⟩ := forth tree shape wellTyped shallow
      exact ⟨tree, other, rfl, rfl, ⟨tokens, others, lexes, lexes', length⟩, read _ spaced⟩

end TypedLisp
