import TypedLisp.Proofs.Reading.Soundness

/-! Reading whole programs, from tokens and from text.

Statements are read one after another, each from the same state and with nothing
open. A reading stops at the first fault of the lexer or the reader, so it is
settled by feeding the reader all tokens before the lexer's fault.
-/

set_option autoImplicit false

namespace TypedLisp

open Grammar

namespace Reader

/-! ## Statements -/

section
variable {reader : Reader} {opening head : Token}

theorem step_opening (idle : reader.state = .idle) (opens : opening.kind = .leftParen) :
    reader.step opening = .ok (reader.become (.statementHead opening.line)) := by
  simp only [step, idle, opens]

theorem faultsFrom_print (kind : NodeKind) (plain : kind.isPlain) (keyword : String) (printed : Node)
    (line depth : Nat) :
    (Node.wrap .statement (.print kind keyword printed line)).faultsFrom depth false =
      printed.faultsFrom depth false := by
  rw [faultsFrom_wrap depth .statement rfl, Node.faultsFrom_of_isPlain plain]
  exact List.append_nil _

theorem faultsFrom_definition (name : Token) (value : Node) (line depth : Nat) :
    (Node.wrap .statement (definition name value line)).faultsFrom depth false =
      value.faultsFrom depth false := by
  have named : (Node.wrap .definedName (.identifier name.lexeme name.line)).faultsFrom depth false =
      [] := rfl
  rw [faultsFrom_wrap depth .statement rfl, Node.faultsFrom_of_isPlain rfl]
  simp [definition, Node.untyped, named]

theorem feed_statementBody {statement : StatementHole} {closing : Token} {tokens : List Token}
    {node body : Node} (reads : Reads tokens node) (closes : closing.kind = .rightParen)
    (filled : reader.fill ⟨statement, []⟩ node = .ok (reader.become (.statementEnd body))) :
    (reader.become (.inside ⟨statement, []⟩)).feed (tokens ++ [closing]) =
      firstOr (node.faultsFrom 0 false) (.ok (reader.complete body)) := by
  have closed : (reader.become (.statementEnd body)).step closing = .ok (reader.complete body) := by
    simp only [step, state_become, closes, complete_become]
  simp [feed_append, reads.inside, filled, closed]

theorem feed_print {closing : Token} {tokens : List Token} {printed : Node} (kind : NodeKind)
    (plain : kind.isPlain) (idle : reader.state = .idle) (parens : Parens opening closing)
    (headed : (reader.become (.statementHead opening.line)).step head =
      .ok (reader.become (.inside ⟨.print opening.line kind head.lexeme, []⟩)))
    (reads : Reads tokens printed) :
    reader.feed (opening :: head :: (tokens ++ [closing])) =
      firstOr ((Node.wrap .statement (.print kind head.lexeme printed opening.line)).faultsFrom 0 false)
        (.ok (reader.complete (.print kind head.lexeme printed opening.line))) := by
  simp only [feed_cons, step_opening idle parens.opens, headed, ok_bind]
  rw [faultsFrom_print kind plain]
  exact feed_statementBody reads parens.closes rfl

end

end Reader

namespace Grammar

open Reader

-- The nesting starts anew with each statement, as nothing is open between them.
theorem Statement.reads {tokens : List Token} {node : Node} (derives : Statement tokens node)
    {reader : Reader} (idle : reader.state = .idle) :
    reader.feed tokens =
      firstOr (node.faultsFrom 0 false) (.ok ⟨node :: reader.statements, .idle⟩) := by
  cases derives with
  | bare expression =>
    rw [expression.reads (.idle idle), faultsFrom_wrap 0 .statement rfl]
    rfl
  | @definition opening head name closing tokens value parens kind named expression =>
    have headed : (reader.become (.statementHead opening.line)).step head =
        .ok (reader.become (.definedName opening.line)) := by
      simp only [step, state_become, kind, become_become]
    have named : (reader.become (.definedName opening.line)).step name =
        .ok (reader.become (.inside ⟨.definition opening.line
          (.wrap .definedName (.identifier name.lexeme name.line)), []⟩)) := by
      simp only [step, state_become, named, become_become]
    simp only [feed_cons, step_opening idle parens.opens, headed, named, ok_bind]
    rw [faultsFrom_definition]
    exact feed_statementBody expression.reads parens.closes rfl
  | @printNum opening head closing tokens printed parens kind expression =>
    have headed : (reader.become (.statementHead opening.line)).step head =
        .ok (reader.become (.inside ⟨.print opening.line .printNum head.lexeme, []⟩)) := by
      simp only [step, state_become, kind, become_become]
    exact feed_print .printNum rfl idle parens headed expression.reads
  | @printBool opening head closing tokens printed parens kind expression =>
    have headed : (reader.become (.statementHead opening.line)).step head =
        .ok (reader.become (.inside ⟨.print opening.line .printBool head.lexeme, []⟩)) := by
      simp only [step, state_become, kind, become_become]
    exact feed_print .printBool rfl idle parens headed expression.reads

theorem Many.reads {tokens : List Token} {nodes : List Node} (many : Many Statement tokens nodes) :
    ∀ {reader : Reader}, reader.state = .idle →
      reader.feed tokens =
        firstOr (Node.faultsAll 0 false nodes) (.ok ⟨nodes.reverse ++ reader.statements, .idle⟩) := by
  induction many with
  | nil =>
    intro reader idle
    cases reader
    cases idle
    rfl
  | cons statement _ ih =>
    intro reader idle
    simp [feed_append, statement.reads idle, ih]

theorem faultsFrom_program {statements : List Node} {tree : Node}
    (program : Node.program? statements = some tree) (depth : Nat) :
    tree.faultsFrom depth false = Node.faultsAll depth false statements := by
  cases statements with
  | nil => cases program
  | cons first rest =>
    cases program
    rw [faultsFrom_wrap depth .program rfl, faultsFrom_gather depth rfl false _ fun _ _ => rfl]

theorem Program.reads {tokens : List Token} {tree : Node} (program : Program tokens tree) :
    ∃ last, last.program? = some tree ∧
      start.feed tokens = firstOr (tree.faultsFrom 0 false) (.ok last) := by
  obtain ⟨statements, many, tree?⟩ := program
  refine ⟨⟨statements.reverse, .idle⟩, by simpa [program?] using tree?, ?_⟩
  have read : start.feed tokens =
      firstOr (Node.faultsAll 0 false statements) (.ok ⟨statements.reverse ++ [], .idle⟩) :=
    many.reads rfl
  rw [faultsFrom_program tree?, read, List.append_nil]

end Grammar

/-! ## Texts -/

namespace Reader

/-- What a reader makes of all that a lexer has left. -/
def outcome (reader : Reader) (lexed : Lexed) : Except SourceError Node :=
  (reader.feed lexed.tokens).bind fun last =>
    match lexed.failure with
    | some error => .error (error.map .lexical)
    | none => last.finish lexed.after.line

section
variable {reader : Reader} {lexed : Lexed}

theorem outcome_eq_ok_iff {tree : Node} :
    reader.outcome lexed = .ok tree ↔
      ∃ last, reader.feed lexed.tokens = .ok last ∧ lexed.failure = none ∧ last.program? = some tree := by
  unfold outcome finish
  cases fed : reader.feed lexed.tokens with
  | error error => simp [Except.bind]
  | ok last => cases lexed.failure <;> cases ended : last.program? <;> simp [ended]

/-- A refused token comes first, then the failure of the lexer, then a statement without its end. -/
theorem outcome_eq_error_iff {error : SourceError} :
    reader.outcome lexed = .error error ↔
      reader.feed lexed.tokens = .error error ∨
      ∃ last, reader.feed lexed.tokens = .ok last ∧
        ((∃ lexical, lexed.failure = some lexical ∧ error = lexical.map .lexical) ∨
          lexed.failure = none ∧ last.program? = none ∧ error = ⟨.unexpectedEnd, lexed.after.line⟩) := by
  unfold outcome finish
  cases fed : reader.feed lexed.tokens with
  | error other => simp [Except.bind]
  | ok last => cases lexed.failure <;> cases ended : last.program? <;> simp [ended, eq_comm]

end

-- The induction is on the text that the lexer has left, along the tokens it gives; a reading that
-- stops early leaves later tokens and failures out of account on both sides.
theorem run_result (reader : Reader) (lexer : Lexer) :
    (reader.run lexer).result = reader.outcome lexer.lexAll := by
  induction lexer using Lexer.lexAll.induct generalizing reader with
  | case1 lexer after pulled =>
    rw [reader.run_of_ended pulled, Lexer.lexAll_of_ended pulled]
    rfl
  | case2 lexer error after pulled =>
    rw [reader.run_of_failed pulled, Lexer.lexAll_of_failed pulled]
    rfl
  | case3 lexer token after pulled ih =>
    rw [Lexer.lexAll_of_token pulled]
    cases stepped : reader.step token with
    | error error =>
      rw [run_of_refused pulled stepped]
      simp only [outcome, feed_cons, stepped]
      rfl
    | ok next =>
      rw [run_of_taken pulled stepped, ih]
      simp only [outcome, feed_cons, stepped, ok_bind]

end Reader

theorem parse_eq_outcome (source : String) :
    parse source = Reader.start.outcome (Lexer.ofSource source).lexAll :=
  Reader.start.run_result (.ofSource source)

theorem tokenize_eq_ok_iff {source : String} {tokens : List Token} :
    tokenize source = .ok tokens ↔
      (Lexer.ofSource source).lexAll.failure = none ∧
        (Lexer.ofSource source).lexAll.tokens = tokens := by
  unfold tokenize Lexed.result
  cases (Lexer.ofSource source).lexAll.failure <;> simp

/-- A program is refused for its first fault only. -/
theorem parse_of_program {source : String} {tokens : List Token} {tree : Node}
    (lexes : tokenize source = .ok tokens) (program : Program tokens tree) :
    parse source = Reader.firstOr (tree.faultsFrom 0 false) (.ok tree) := by
  obtain ⟨intact, rfl⟩ := tokenize_eq_ok_iff.mp lexes
  obtain ⟨last, ended, read⟩ := program.reads
  rw [parse_eq_outcome]
  simp only [Reader.outcome, read, intact, Reader.firstOr_bind, Reader.ok_bind, Reader.finish, ended]

theorem program_of_parse {source : String} {tree : Node} (parsed : parse source = .ok tree) :
    ∃ tokens, tokenize source = .ok tokens ∧ Program tokens tree := by
  rw [parse_eq_outcome] at parsed
  obtain ⟨last, read, intact, ended⟩ := Reader.outcome_eq_ok_iff.mp parsed
  exact ⟨_, tokenize_eq_ok_iff.mpr ⟨intact, rfl⟩, Reader.program_of_feed read ended⟩

end TypedLisp
