import TypedLisp.EventLog
import TypedLisp.Proofs.Descent.Calls
import TypedLisp.Proofs.Reading.Adequacy
import TypedLisp.Proofs.Typing.Demands

/-! Where a reading stops.

A reading goes on to the end of its text, to a fault of the lexer, or to a token that
is refused, and pulls no token after that. The state before a refused token stands
for the tokens pulled so far, and so tells which phrase that token completes: the
operands of an operator at its closing parenthesis, a condition at its last token.
-/

set_option autoImplicit false

namespace TypedLisp

open Grammar

theorem Grammar.Many.starts {tokens : List Token} {node : Node} {nodes : List Node}
    (many : Many Expression tokens (node :: nodes)) :
    ∃ first rest, tokens = first :: rest ∧ first.line = node.line := by
  cases many with
  | cons derives _ =>
    obtain ⟨first, rest, rfl, -, line⟩ := derives.starts
    exact ⟨first, _, rfl, line⟩

namespace Reader

/-- The last of some tokens is refused. A type fault is that of a rule whose phrase ends there. -/
inductive RefusedAt (tokens : List Token) : SourceError → Prop
  | unexpectedToken {last : Token} : [last] <:+ tokens →
      RefusedAt tokens ⟨.unexpectedToken last.lexeme, last.line⟩
  | nestedTooDeep {last : Token} : [last] <:+ tokens → last.kind = .leftParen →
      RefusedAt tokens ⟨.nestedTooDeep, last.line⟩
  | operation {opening head closing : Token} {operator : Operator} {inner : List Token}
      {operands : List Node} {fault : TypeFault} :
      opening :: head :: (inner ++ [closing]) <:+ tokens →
      Parens opening closing → head.kind = .operator operator →
      Many Expression inner operands → operator.Takes operands.length →
      (Demand.fit operator.symbol operator.expects operands).Fails fault →
      RefusedAt tokens ⟨.illTyped fault, opening.line⟩
  | list {opening head second closing : Token} {operator : Operator} {first later : List Token}
      {operand : Node} {operands : List Node} {fault : TypeFault} :
      opening :: head :: (first ++ (second :: later ++ [closing])) <:+ tokens →
      Parens opening closing → head.kind = .operator operator → operator.variadic →
      Expression first operand → Many Expression (second :: later) operands →
      2 ≤ operands.length → (Demand.share operands).Fails fault →
      RefusedAt tokens ⟨.illTyped fault, second.line⟩
  | test {opening head first : Token} {later : List Token} {condition : Node} {fault : TypeFault} :
      opening :: head :: first :: later <:+ tokens →
      opening.kind = .leftParen → head.kind = .conditional → Expression (first :: later) condition →
      (Demand.fit "if test expr" .boolean [condition]).Fails fault →
      RefusedAt tokens ⟨.illTyped fault, first.line⟩

theorem RefusedAt.after {tokens : List Token} {error : SourceError} (refused : RefusedAt tokens error)
    (before : List Token) : RefusedAt (before ++ tokens) error := by
  have within {piece : List Token} (ends : piece <:+ tokens) : piece <:+ before ++ tokens :=
    ends.trans (List.suffix_append before tokens)
  cases refused with
  | unexpectedToken ends => exact .unexpectedToken (within ends)
  | nestedTooDeep ends opens => exact .nestedTooDeep (within ends) opens
  | operation ends parens kind many takes fails =>
    exact .operation (within ends) parens kind many takes fails
  | list ends parens kind variadic derives many several fails =>
    exact .list (within ends) parens kind variadic derives many several fails
  | test ends opens kind derives fails => exact .test (within ends) opens kind derives fails

/-! ## Rules -/

section
variable {error : SourceError}

theorem listFaults_ne_nil {operator : Operator} {operands : List Node} {faults : List SourceError}
    (found : listFaults operator operands = error :: faults) :
    ∃ first second third rest, operands = first :: second :: third :: rest ∧ operator.variadic ∧
      (expressionList (second :: third :: rest) second.line).violation? = some error := by
  unfold listFaults at found
  split at found
  next first second third rest =>
    split at found
    next variadic =>
      refine ⟨first, second, third, rest, rfl, variadic, ?_⟩
      cases violated : (expressionList (second :: third :: rest) second.line).violation? with
      | none =>
        rw [violated] at found
        cases found
      | some other =>
        rw [violated] at found
        cases found
        rfl
    next => cases found
  next => cases found

-- The list is checked before the operator; whichever fails first is the error.
theorem refusedAt_operation {opening head closing : Token} {operator : Operator} {inner : List Token}
    {operands : List Node} (parens : Parens opening closing) (kind : head.kind = .operator operator)
    (many : Many Expression inner operands) (takes : operator.Takes operands.length)
    (refused : applyOperator operator operands opening.line = .error error) :
    RefusedAt (opening :: head :: (inner ++ [closing])) error := by
  have single : ∀ operand ∈ operands, operand.kind ≠ .expressionList :=
    many.forall_mem fun derives => by simp [derives.kind_eq]
  rw [applyOperator_eq operator opening.line single, firstOr_ok_eq_error_iff] at refused
  cases found : listFaults operator operands with
  | nil =>
    rw [found, List.nil_append, Option.head?_toList, Node.violation?_eq_some_iff] at refused
    obtain ⟨fault, failed, rfl⟩ := refused
    have demands := Demands.operation List.infix_rfl parens kind many takes
    exact .operation List.suffix_rfl parens kind many takes (demands.rule_eq_error_iff.mp failed)
  | cons other faults =>
    rw [found] at refused
    cases refused
    obtain ⟨first, second, third, rest, rfl, variadic, violated⟩ := listFaults_ne_nil found
    obtain ⟨fault, failed, rfl⟩ := Node.violation?_eq_some_iff.mp violated
    cases many with
    | cons one others =>
      obtain ⟨token, later, rfl, line⟩ := others.starts
      have several : 2 ≤ (second :: third :: rest).length := by simp
      rw [List.append_assoc]
      have demands := Demands.list List.infix_rfl parens kind variadic one others several
      rw [line] at demands
      have fails := demands.rule_eq_error_iff.mp failed
      have here := RefusedAt.list List.suffix_rfl parens kind variadic one others several fails
      rwa [line] at here

theorem Form.Opened.refusedAt {form : Form} {tokens body : List Token} {expression : Node}
    (opened : form.Opened tokens) (derives : Expression body expression)
    (refused : form.hole.fill expression = .error error) : RefusedAt (tokens ++ body) error := by
  cases opened with
  | operand =>
    simp only [Hole.fill] at refused
    split at refused <;> cases refused
  | condition opens kind =>
    obtain ⟨fault, checked, rfl⟩ := Hole.condition_fill_eq_error_iff.mp refused
    obtain ⟨first, later, rfl, -, line⟩ := derives.starts
    have fails : (Demand.fit "if test expr" .boolean [expression]).Fails fault :=
      (Demand.fails_fit_iff (List.forall_mem_singleton.mpr fun _ => derives.shows_iff)).mpr checked
    rw [← line]
    exact .test List.suffix_rfl opens kind derives fails
  | thenBranch | elseBranch | body | namedArgument | functionArgument => cases refused

theorem Whole.Opened.refusedAt {line closeLine : Nat} {whole : Whole} {tokens : List Token}
    {closing : Token} (opened : whole.Opened line tokens) (closes : closing.kind = .rightParen)
    (refused : whole.close line closeLine = .error error) : RefusedAt (tokens ++ [closing]) error := by
  obtain ⟨operator, operands, rfl, applied⟩ := Whole.close_eq_error_iff.mp refused
  cases opened with
  | operation opens kind many takes =>
    exact refusedAt_operation ⟨opens, closes⟩ kind many takes applied

/-! ## Steps -/

section
variable {reader : Reader} {context : Context} {outer : List Token}

theorem refusedAt_of_fill {tokens : List Token} {expression : Node} (opened : context.Opened outer)
    (derives : Expression tokens expression) (refused : reader.fill context expression = .error error) :
    RefusedAt (outer ++ tokens) error := by
  cases opened with
  | statement opened => cases opened <;> cases refused
  | form around inner =>
    simp only [Reader.fill] at refused
    rw [List.append_assoc]
    split at refused
    next filled =>
      cases refused
      exact (inner.refusedAt derives filled).after _
    next => cases refused
    next => cases refused

theorem refusedAt_of_close {line : Nat} {whole : Whole} {tokens : List Token} {closing : Token}
    (opened : context.Opened outer) (form : whole.Opened line tokens)
    (closes : closing.kind = .rightParen)
    (refused : reader.close line whole context closing.line = .error error) :
    RefusedAt (outer ++ (tokens ++ [closing])) error := by
  simp only [Reader.close] at refused
  split at refused
  next unclosed =>
    cases refused
    exact (form.refusedAt closes unclosed).after outer
  next node closed =>
    -- The form is in order, so it is the place of the expression that refuses it.
    cases form.close closes closed with
    | node derives => exact refusedAt_of_fill opened derives refused
  next => cases refused

theorem refusedAt_of_begin {token : Token} (opened : context.Opened outer)
    (refused : reader.begin context token = .error error) : RefusedAt (outer ++ [token]) error := by
  have ends : [token] <:+ outer ++ [token] := List.suffix_append ..
  unfold Reader.begin at refused
  split at refused
  next kind => exact refusedAt_of_fill opened (.number kind) refused
  next kind => exact refusedAt_of_fill opened (.boolean kind) refused
  next kind => exact refusedAt_of_fill opened (.identifier kind) refused
  next kind =>
    split at refused
    · cases refused
    · cases refused
      exact .nestedTooDeep ends kind
  next =>
    cases refused
    exact .unexpectedToken ends

theorem refusedAt_of_unexpected {token : Token} (tokens : List Token)
    (refused : (unexpected token : Except SourceError Reader) = .error error) :
    RefusedAt (tokens ++ [token]) error := by
  cases refused
  exact .unexpectedToken (List.suffix_append ..)

theorem refusedAt_of_openForm {line : Nat} {token : Token} (tokens : List Token)
    (refused : reader.openForm line context token = .error error) :
    RefusedAt (tokens ++ [token]) error := by
  unfold Reader.openForm at refused
  split at refused
  case h_6 => exact refusedAt_of_unexpected tokens refused
  all_goals cases refused

theorem refusedAt_of_stepInside {token : Token} (opened : context.Opened outer)
    (refused : (reader.become (.inside context)).step token = .error error) :
    RefusedAt (outer ++ [token]) error := by
  simp only [Reader.step, state_become] at refused
  split at refused
  next form inner closes forms =>
    split at refused
    next whole closable =>
      cases opened with
      | statement => cases forms
      | form around opened =>
        cases forms
        rw [List.append_assoc]
        exact refusedAt_of_close around (opened.whole closable) closes refused
    next => exact refusedAt_of_unexpected outer refused
  next => exact refusedAt_of_begin opened refused

-- What a refusal is about lies within the statement in progress, so the statements before it do not matter.
theorem Holds.refusedAt {tokens : List Token} {token : Token} (holds : reader.Holds tokens)
    (refused : reader.step token = .error error) : RefusedAt (tokens ++ [token]) error := by
  obtain ⟨earlier, current, rfl, many, holds⟩ := holds
  rw [List.append_assoc]
  refine RefusedAt.after ?_ earlier
  unfold Reader.step at refused
  generalize reader.state = state at holds refused
  cases holds with
  | idle =>
    dsimp only at refused
    split at refused
    next => cases refused
    next => exact refusedAt_of_begin (.statement .bare) refused
  | statementHead =>
    dsimp only at refused
    split at refused
    case h_4 => exact refusedAt_of_openForm _ refused
    all_goals cases refused
  | inside opened => exact refusedAt_of_stepInside opened refused
  | closing opened form =>
    dsimp only at refused
    split at refused
    next kind =>
      rw [List.append_assoc]
      exact refusedAt_of_close opened form kind refused
    next => exact refusedAt_of_unexpected _ refused
  | head => exact refusedAt_of_openForm _ refused
  | parameters =>
    dsimp only at refused
    split at refused
    next => cases refused
    next => cases refused
    next => exact refusedAt_of_unexpected _ refused
  | definedName | statementEnd | calleeHead | parametersStart =>
    dsimp only at refused
    split at refused
    next => cases refused
    next => exact refusedAt_of_unexpected _ refused

end

end

end Reader

/-! ## Readings -/

def Event.lexed? : Event → Option Token
  | .lexed token => some token
  | _ => none

theorem Reading.lexed_events (reading : Reading) :
    reading.events.filterMap Event.lexed? = reading.pulled := by
  have pulled : (reading.pulled.map Event.lexed).filterMap Event.lexed? = reading.pulled := by
    rw [List.filterMap_map]
    exact List.filterMap_some
  unfold events
  rw [List.filterMap_append, pulled]
  cases reading.result <;> exact List.append_nil _

/-- The ways for a reading of a text to end, each with the tokens pulled and what is left. -/
inductive Stops (source : String) : Reading → Prop
  | program {tokens : List Token} {tree : Node} : tokenize source = .ok tokens →
      Stops source ⟨.ok tree, tokens, ⟨[], 1 + newlines source⟩⟩
  | unexpectedEnd {tokens : List Token} : tokenize source = .ok tokens →
      Stops source ⟨.error ⟨.unexpectedEnd, 1 + newlines source⟩, tokens, ⟨[], 1 + newlines source⟩⟩
  | lexical {fault : LexicalFault} {line : Nat} : tokenize source = .error ⟨fault, line⟩ →
      Stops source ⟨.error ⟨.lexical fault, line⟩, (Lexer.ofSource source).lexAll.tokens, ⟨[], line⟩⟩
  | refused {tokens : List Token} {error : SourceError} {line : Nat} {rest : List Char} :
      Reader.RefusedAt tokens error → Tiles 1 source.toList tokens line rest →
      Stops source ⟨.error error, tokens, ⟨rest, line⟩⟩

theorem Lexer.after_lexAll (source : String) :
    (Lexer.ofSource source).lexAll.after =
      ⟨[], ((Lexer.ofSource source).lexAll.failure.map Located.line).getD (1 + newlines source)⟩ := by
  obtain ⟨tokens, line, rest, tiles, blank | ⟨error, fails⟩⟩ := exists_tiles (.ofSource source)
  · have lexed : (Lexer.ofSource source).lexAll = _ := lexAll_of_tiles tiles
    rw [lexAll_of_allBlank blank] at lexed
    rw [lexed]
    exact congrArg (Lexer.mk []) tiles.line_add_count
  · have lexed : (Lexer.ofSource source).lexAll = _ := lexAll_of_tiles tiles
    rw [lexAll_of_fails fails] at lexed
    rw [lexed]
    rfl

theorem stops_of_feed {source : String} {last : Reader}
    (taken : Reader.start.feed (Lexer.ofSource source).lexAll.tokens = .ok last) :
    Stops source ⟨Reader.start.outcome (Lexer.ofSource source).lexAll,
      (Lexer.ofSource source).lexAll.tokens, (Lexer.ofSource source).lexAll.after⟩ := by
  have ended := Lexer.after_lexAll source
  cases failure : (Lexer.ofSource source).lexAll.failure with
  | some error =>
    have refused : tokenize source = .error error := by simp only [tokenize, Lexed.result, failure]
    rw [failure] at ended
    rw [ended]
    simp only [Reader.outcome, taken, failure, Reader.ok_bind]
    exact .lexical refused
  | none =>
    have lexes := tokenize_eq_ok_iff.mpr ⟨failure, rfl⟩
    rw [failure] at ended
    simp only [Reader.outcome, taken, failure, Reader.ok_bind, Reader.finish, ended]
    cases last.program? with
    | none => exact .unexpectedEnd lexes
    | some tree => exact .program lexes

/-- The tokens pulled start the tokens of the text and account for the result, and none is left over
with a parser that looks ahead. -/
theorem reading_stops (source : String) :
    (Lexer.ofSource source).read.pulled <+: (Lexer.ofSource source).lexAll.tokens ∧
    (Lexer.ofSource source).read.events.filterMap Event.lexed? = (Lexer.ofSource source).read.pulled ∧
    Stops source (Lexer.ofSource source).read ∧
    ∃ after, (Parser.ofSource source).run = some ((Lexer.ofSource source).read.result, after) ∧
      after.lexer = (Lexer.ofSource source).read.after ∧ after.lookahead = none := by
  obtain ⟨after, called, left, settled⟩ := Parser.exists_run (Parser.ofSource_settled source)
  have accounts : (Lexer.ofSource source).read.pulled <+: (Lexer.ofSource source).lexAll.tokens ∧
      Stops source (Lexer.ofSource source).read := by
    unfold Lexer.read
    rcases Reader.start.run_cases (.ofSource source) with ⟨last, taken, run⟩ |
      ⟨before, token, later, next, error, after, split, taken, refused, run, tiles⟩
    · rw [run]
      exact ⟨List.prefix_rfl, stops_of_feed taken⟩
    · rw [run]
      refine ⟨⟨later, by rw [split, List.append_assoc, List.singleton_append]⟩, ?_⟩
      exact .refused ((Reader.start_holds.feed taken).refusedAt refused) tiles
  exact ⟨accounts.1, Reading.lexed_events _, accounts.2, after, called, left, settled.lookahead⟩

/-- A condition that is a number is refused at its own closing parenthesis. -/
example : (Lexer.ofSource "(if (+ 1 2) x y)").read.pulled.length = 7 := by decide +kernel

end TypedLisp
