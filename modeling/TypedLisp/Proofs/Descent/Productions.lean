import TypedLisp.Proofs.Descent.Following
import TypedLisp.Proofs.Reading.Completeness

/-! Productions that follow a reader.

A production starts where the reader has opened what it parses and ends where its
node takes its place. What an expression inside a form does is assumed of the parser
for it, one form deeper; the assumption is met by induction on the forms that are
unfolded, of which there is always one more than may still be opened.
-/

set_option autoImplicit false

namespace TypedLisp

open Reader (nestingLimit unexpected sequel Context StatementHole Hole Whole FunctionRole
  applyOperator groupOperands operandState)

namespace Reader

def waiting (reader : Reader) (context : Context) (line : Nat) (hole : Hole) : Reader :=
  reader.become (.inside (context.enter line hole))

def apply (reader : Reader) (context : Context) (line : Nat) (operator : Operator)
    (grouped : List Node) : Except SourceError Reader :=
  match Node.operation operator grouped line with
  | .error fault => .error ⟨.illTyped fault, line⟩
  | .ok node => reader.fill context (.expression node)

def placeFunction (reader : Reader) (context : Context) (role : FunctionRole)
    (function : Node) : Except SourceError Reader :=
  match role with
  | .expression => reader.fill context (.expression function)
  | .callee callLine => .ok (reader.waiting context callLine (.argument function []))

variable (reader : Reader) {context : Context} {line : Nat}

theorem close_operation_eq_bind (operator : Operator) (operands : List Node) (closeLine : Nat) :
    reader.close line (.operation operator operands) context closeLine =
      (groupOperands operator operands).bind (reader.apply context line operator) := by
  simp only [close, Whole.close, applyOperator]
  cases groupOperands operator operands with
  | error error => rfl
  | ok grouped =>
    simp only [Except.bind, apply]
    cases Node.operation operator grouped line <;> rfl

end Reader

namespace Parser

/-- A text whose next token is the start of an expression to a reader. -/
structure Begins (reader : Reader) (context : Context) (lexer : Lexer) : Prop where
  unfinished : ∀ after, lexer.pull = .ended after → reader.program? = none
  step : ∀ token after, lexer.pull = .token token after →
    reader.step token = reader.begin context token

/-- A parser for expressions, with as many forms open as around the reader it follows. -/
structure Expresses (depth : Nat) (expression : Parse Node) : Prop where
  fetches : Fetches depth expression
  follows : ∀ (reader : Reader) (context : Context), context.forms.length = depth →
    Follows (Begins reader context) depth 1 (sequel (.ok reader)) expression
      fun node => sequel (reader.fill context node)

section
variable {β : Type} {depth : Nat} {after : β → Sequel} {reader : Reader} {context : Context}
  {line : Nat}

/-! ## Closing parentheses -/

theorem follows_closing {whole : Whole} {next : Token → Parse β}
    (closes : ∀ token, Follows Anything depth 0 (sequel (reader.close line whole context token.line))
      (next token) after) :
    Follows Anything depth 1 (sequel (.ok (reader.become (.closing line whole context))))
      (expect .rightParen >>= next) after := by
  refine follows_expect (fun _ _ _ _ => rfl) (fun token _ _ _ _ other => ?_) fun token closing => ?_
  · simp only [Reader.step, Reader.state_become]
  · simp only [Reader.step, Reader.state_become, closing, Reader.close_become]
    exact closes token

def AtClosing (lexer : Lexer) : Prop :=
  ∃ next, lexer.Shows next ∧ (!nextIs .rightParen next) = false

def NotAtClosing (lexer : Lexer) : Prop :=
  ∃ next, lexer.Shows next ∧ (!nextIs .rightParen next) = true

theorem follows_closing_waiting {hole : Hole} {whole : Whole} {next : Token → Parse β}
    (saturated : hole.whole? = some whole)
    (closes : ∀ token, Follows Anything depth 0 (sequel (reader.close line whole context token.line))
      (next token) after) :
    Follows AtClosing depth 1 (sequel (.ok (reader.waiting context line hole)))
      (expect .rightParen >>= next) after := by
  refine follows_expect (fun _ _ _ _ => rfl) ?_ fun token closing => ?_
  · rintro token lexer after ⟨next, shown, atClosing⟩ pulled other
    obtain rfl := shown.eq_of_token pulled
    simp [nextIs, other] at atClosing
  · simp only [Reader.waiting, Reader.step, Reader.state_become, closing, Context.enter, saturated,
      Reader.close_become]
    exact closes token

/-! ## Expressions in forms -/

theorem begins_waiting {hole : Hole} {lexer : Lexer}
    (starts : hole.whole? = none ∨ NotAtClosing lexer) :
    Begins (reader.waiting context line hole) (context.enter line hole) lexer where
  unfinished _ _ := rfl
  step token after pulled := by
    simp only [Reader.waiting, Reader.step, Reader.state_become]
    split
    next form outer closes entered =>
      cases entered
      rcases starts with none | ⟨next, shown, noClosing⟩
      · simp only [none, Reader.begin, closes]
      · obtain rfl := shown.eq_of_token pulled
        simp [nextIs, closes] at noClosing
    · rfl

variable {expression : Parse Node} (expresses : Expresses (depth + 1) expression)
  (inside : context.forms.length = depth)
include expresses inside

theorem Expresses.open {hole : Hole} (opened : hole.whole? = none) :
    Follows Anything (depth + 1) 1 (sequel (.ok (reader.waiting context line hole))) expression
      fun node => sequel (reader.fill (context.enter line hole) node) :=
  (expresses.follows (reader.waiting context line hole) (context.enter line hole)
    (congrArg (· + 1) inside)).mono (fun _ _ => begins_waiting (.inl opened)) (Nat.le_refl _)

theorem Expresses.more {hole : Hole} :
    Follows NotAtClosing (depth + 1) 1 (sequel (.ok (reader.waiting context line hole))) expression
      fun node => sequel (reader.fill (context.enter line hole) node) :=
  (expresses.follows (reader.waiting context line hole) (context.enter line hole)
    (congrArg (· + 1) inside)).mono (fun _ holds => begins_waiting (.inr holds)) (Nat.le_refl _)

/-! ## Operators -/

theorem follows_several {operator : Operator} (fixed : operator.variadic = false) (count : Nat) :
    ∀ operands : List Node, operands.length + count = operator.arity →
      Follows Anything (depth + 1) 0
        (sequel (.ok (reader.become (operandState operator operands line context))))
        (several expression count) fun nodes => sequel (.ok (reader.become
          (.closing line (.operation operator (operands.reverse ++ nodes)) context))) := by
  -- The operands read and those still to be read are together as many as the operator takes.
  induction count with
  | zero =>
    intro operands full
    refine follows_pure ?_
    have enough : operator.takesMore operands.length = false := by
      simp only [Operator.takesMore, fixed, Bool.false_or, decide_eq_false_iff_not]
      omega
    simp only [operandState, enough, Bool.false_eq_true, if_false, List.append_nil]
  | succ count ih =>
    intro operands short
    have lacking : operator.takesMore operands.length = true := by
      simp only [Operator.takesMore, fixed, Bool.false_or, decide_eq_true_eq]
      omega
    have opened : (Hole.operand operator operands).whole? = none := by
      have := decide_eq_false (p := operator.arity ≤ operands.length) (by omega)
      simp [Hole.whole?, Operator.isSaturated, this]
    simp only [operandState, lacking, if_true]
    refine ((expresses.open inside opened).bind fun first => ?_).weaken
    rw [Reader.fill_operand]
    refine (ih (first :: operands) (by simp; omega)).bind fun rest => follows_pure ?_
    simp

theorem follows_operands (operator : Operator) :
    Follows Anything (depth + 1) 0
      (sequel (.ok (reader.become (operandState operator [] line context))))
      (operands expression operator)
      fun grouped => sequel (reader.apply context line operator grouped) := by
  unfold operands
  split
  next variadic =>
    have waits (read : List Node) : reader.become (operandState operator read line context) =
        reader.waiting context line (.operand operator read) := by
      simp [operandState, Operator.takesMore, variadic, Reader.waiting]
    have arity : operator.arity = 2 := by cases operator <;> first | rfl | cases variadic
    have whole? (read : List Node) : (Hole.operand operator read).whole? =
        if 2 ≤ read.length then some (.operation operator read.reverse) else none := by
      simp [Hole.whole?, Operator.isSaturated, arity]
    rw [waits]
    refine ((expresses.open inside (whole? [])).bind fun first => ?_).weaken
    rw [Reader.fill_operand, waits]
    refine ((expresses.open inside (whole? [first])).bind fun second => ?_).weaken
    rw [Reader.fill_operand, waits]
    -- From the second operand on the form may be closed, so the loop decides what comes.
    let read (rest : List Node) := rest.reverse ++ [second, first]
    have step (rest : List Node) (node : Node) :
        reader.fill (context.enter line (.operand operator (read rest))) node =
          .ok (reader.waiting context line (.operand operator (read (rest ++ [node])))) := by
      rw [Reader.fill_operand, waits]
      simp [read]
    refine follows_collect (fun rest => reader.waiting context line (.operand operator (read rest)))
      expresses.fetches (fun _ _ _ => (fetches_expect _).bind _) (fun rest => ?_) (fun rest => ?_) []
    · exact (expresses.more inside).congr fun node => congrArg sequel (step rest node)
    · have closable := (whole? (read rest)).trans (if_pos (by simp [read]))
      refine (follows_closing_waiting closable fun token => ?_).weaken
      rw [Reader.close_operation_eq_bind]
      refine (follows_typed (fun tail => reader.apply context line operator [first, tail]) ?_).bind
        fun tail => follows_pure rfl
      simp only [read, groupOperands, variadic, List.reverse_append, List.reverse_reverse,
        List.reverse_cons, List.reverse_nil, List.nil_append, List.cons_append]
      cases Node.operandTail second rest <;> rfl
  next fixed =>
    have fixed : operator.variadic = false := Bool.not_eq_true _ ▸ fixed
    refine (follows_several expresses inside fixed operator.arity [] (by simp)).bind fun nodes => ?_
    refine (follows_closing fun token => follows_pure ?_).weaken
    rw [Reader.close_operation_eq_bind]
    simp [groupOperands, fixed]

theorem follows_operation (operator : Operator) :
    Follows Anything (depth + 1) 0
      (sequel (.ok (reader.waiting context line (.operand operator []))))
      (operation expression operator line)
      fun node => sequel (reader.fill context (.expression node)) := by
  have waits : reader.become (operandState operator [] line context) =
      reader.waiting context line (.operand operator []) := by
    cases operator <;> rfl
  rw [← waits]
  refine (follows_operands expresses inside operator).bind fun grouped => ?_
  refine follows_typed (fun node => reader.fill context (.expression node)) ?_
  unfold Reader.apply
  cases Node.operation operator grouped line <;> rfl

/-! ## Conditionals -/

theorem follows_conditional :
    Follows Anything (depth + 1) 0 (sequel (.ok (reader.waiting context line .condition)))
      (conditional expression line) fun node => sequel (reader.fill context (.expression node)) := by
  refine ((expresses.open inside rfl).bind fun condition => ?_).weaken
  refine (follows_typed (fun test => .ok (reader.waiting context line (.thenBranch test))) ?_).bind
    fun test => ?_
  · simp only [Reader.fill, Context.enter, Hole.fill, Reader.waiting]
    cases Node.test condition <;> rfl
  refine ((expresses.open inside rfl).bind fun consequent => ?_).weaken
  refine ((expresses.open inside rfl).bind fun alternative => ?_).weaken
  change Follows _ _ _ (sequel (.ok (reader.become (.closing line (.conditional test
    (.wrap .consequent consequent) (.wrap .alternative alternative)) context)))) _ _
  refine (follows_closing fun token => ?_).weaken
  exact follows_pure rfl

/-! ## Functions and calls -/

omit expresses inside in
theorem follows_parameter {role : FunctionRole} {listLine : Nat} {read : List Node} :
    Follows (fun lexer => ∃ next, lexer.Shows next ∧ nextIs .identifier next = true) depth 1
      (sequel (.ok (reader.become (.parameters role line listLine read context)))) parameter
      fun node =>
        sequel (.ok (reader.become (.parameters role line listLine (node :: read) context))) := by
  unfold parameter identifier
  rw [bind_assoc]
  refine follows_expect (fun _ _ _ _ => rfl) ?_ fun token named => ?_
  · rintro token lexer after ⟨next, shown, named⟩ pulled other
    obtain rfl := shown.eq_of_token pulled
    simp [nextIs, other] at named
  · simp only [Reader.step, Reader.state_become, named, Reader.become_become]
    exact follows_pure rfl

theorem follows_function (role : FunctionRole) :
    Follows Anything (depth + 1) 0
      (sequel (.ok (reader.become (.parametersStart role line context))))
      (function expression line) fun node => sequel (reader.placeFunction context role node) := by
  refine (follows_expect (fun _ _ _ _ => rfl) (fun token _ _ _ _ other => ?_)
    fun opening opens => ?_).weaken
  · simp only [Reader.step, Reader.state_become]
  simp only [Reader.step, Reader.state_become, opens, Reader.become_become]
  refine follows_collect (fun read => reader.become
      (.parameters role line opening.line read.reverse context))
    ((fetches_expect _).bind _ |>.bind _) (fun _ _ _ => (fetches_expect _).bind _)
    (fun read => ?_) (fun read => ?_) []
  · exact follows_parameter.congr fun node => by simp
  refine (follows_expect (fun _ _ _ _ => rfl) ?_ fun closing closes => ?_).weaken
  -- The loop has stopped at a token that is no name, so only the end of the list is left.
  · rintro token lexer after ⟨next, shown, noName⟩ pulled other
    obtain rfl := shown.eq_of_token pulled
    have noName : token.kind ≠ .identifier := by simpa [nextIs] using noName
    simp only [Reader.step, Reader.state_become]
  simp only [Reader.step, Reader.state_become, closes, Reader.become_become, List.reverse_reverse]
  let collected := Node.gather .parameterList opening.line read
  refine ((expresses.open inside rfl).bind fun body => ?_).weaken
  change Follows _ _ _ (sequel (.ok (reader.become (.closing line (.function role collected
    (.wrap .body body)) context)))) _ _
  refine (follows_closing fun token => ?_).weaken
  cases role <;> exact follows_pure rfl

theorem follows_call (callee : Node) :
    Follows Anything (depth + 1) 0
      (sequel (.ok (reader.waiting context line (.argument callee []))))
      (call expression callee line) fun node => sequel (reader.fill context (.expression node)) := by
  refine follows_collect (fun arguments => reader.waiting context line
      (.argument callee arguments.reverse)) (expresses.fetches.bind _)
    (fun _ _ _ => (fetches_expect _).bind _) (fun arguments => ?_) (fun arguments => ?_) []
  · refine (expresses.more inside).bind fun value => follows_pure ?_
    simp [Reader.fill, Context.enter, Hole.fill, Reader.waiting]
  · refine (follows_closing_waiting rfl fun token => ?_).weaken
    simp only [List.reverse_reverse]
    exact follows_pure rfl

/-! ## Forms -/

theorem follows_form (unfinished : reader.program? = none) :
    Follows (fun lexer => ∀ token after, lexer.pull = .token token after →
        reader.step token = reader.openForm line context token) (depth + 1) 1 (sequel (.ok reader))
      (form expression line) fun node => sequel (reader.fill context (.expression node)) := by
  refine follows_advance (fun _ _ _ _ => unfinished) fun head lexer after opens pulled => ?_
  rw [opens head after pulled, Reader.openForm]
  cases head.kind with
  | operator operator => exact follows_operation expresses inside operator
  | conditional => exact follows_conditional expresses inside
  | function => exact follows_function expresses inside .expression
  | leftParen =>
    -- The called function is on the line of its call, and opens no form of its own.
    refine (follows_expect (fun _ _ _ _ => rfl) (fun token _ _ _ _ other => ?_)
      fun token function => ?_).weaken
    · simp only [Reader.step, Reader.state_become]
    simp only [Reader.step, Reader.state_become, function, Reader.become_become]
    exact (follows_function expresses inside (.callee line)).bind fun callee =>
      follows_call expresses inside callee
  | identifier => exact follows_call expresses inside _
  | _ => exact follows_throw _

end

section
variable {depth : Nat}

theorem expresses_of_compound {compound : Nat → Parse Node}
    (follows : ∀ (reader : Reader) (context : Context) (line : Nat), context.forms.length = depth →
      Follows Anything depth 0
        (sequel (if depth < nestingLimit then .ok (reader.become (.head line context))
          else .error ⟨.nestedTooDeep, line⟩))
        (compound line) fun node => sequel (reader.fill context (.expression node))) :
    Expresses depth (expression compound) where
  fetches := fetches_advance.bind _
  follows reader context inside := by
    refine follows_advance (fun lexer after begins => begins.unfinished after)
      fun token lexer after begins pulled => ?_
    rw [begins.step token after pulled, Reader.begin]
    cases token.kind with
    | number | boolean | identifier => exact follows_pure rfl
    | leftParen =>
      rw [inside]
      exact (follows reader context token.line inside).bind fun node => follows_pure rfl
    | _ => exact follows_throw _

theorem follows_tooDeep {ahead : Lexer → Prop} {least : Nat} {after : Node → Sequel} {line : Nat}
    {action : Parse Node} (full : nestingLimit ≤ depth) :
    Follows ahead depth least (sequel (.error ⟨.nestedTooDeep, line⟩)) (nested line action) after := by
  intro parser settled _
  rw [nested, if_pos (settled.depth ▸ full)]
  exact ⟨settled, rfl⟩

/-- An expression is parsed as it is read, if more forms are unfolded than may still be opened. -/
theorem expresses_of_unfolded (unfolded : Nat) : ∀ depth, depth + unfolded = nestingLimit →
    Expresses depth (expression (compound (unfolded + 1))) := by
  induction unfolded with
  | zero =>
    -- Parser and reader both have as many forms open as they may.
    intro depth full
    refine expresses_of_compound fun reader context line _ => ?_
    rw [if_neg (by omega)]
    exact follows_tooDeep (Nat.le_of_eq full.symm)
  | succ unfolded ih =>
    intro depth full
    refine expresses_of_compound fun reader context line inside => ?_
    rw [if_pos (by omega)]
    refine follows_nested (by omega) ?_
    refine ((follows_form (ih (depth + 1) (by omega)) inside rfl).mono ?_ (Nat.zero_le _))
    intro lexer _ token after _
    rfl

end

/-! ## Statements -/

theorem expresses_outermost : Expresses 0 outermost :=
  expresses_of_unfolded nestingLimit 0 (Nat.zero_add _)

section
variable {reader : Reader} {line : Nat} {token : Token}

theorem follows_statementEnd {statement : StatementHole} {body : Node → Node}
    (filled : ∀ node,
      reader.fill ⟨statement, []⟩ node = .ok (reader.become (.statementEnd (body node)))) :
    Follows Anything 0 1 (sequel (.ok (reader.become (.inside ⟨statement, []⟩))))
      (do
        let node ← outermost
        let _ ← expect .rightParen
        return body node)
      fun node => sequel (.ok (reader.complete node)) := by
  have begins (lexer : Lexer) :
      Begins (reader.become (.inside ⟨statement, []⟩)) ⟨statement, []⟩ lexer := by
    refine ⟨fun _ _ => rfl, fun token _ _ => ?_⟩
    simp only [Reader.step, Reader.state_become]
    split
    · contradiction
    · rfl
  refine ((expresses_outermost.follows _ ⟨statement, []⟩ rfl).mono (fun lexer _ => begins lexer)
    (Nat.le_refl _)).bind fun node => ?_
  rw [Reader.fill_become, filled]
  refine (follows_expect (fun _ _ _ _ => rfl) (fun token _ _ _ _ other => ?_)
    fun token closes => ?_).weaken
  · simp only [Reader.step, Reader.state_become]
  · simp only [Reader.step, Reader.state_become, closes]
    exact follows_pure rfl

theorem follows_definition (defines : token.kind = .define) :
    Follows (·.Shows (some token)) 0 1 (sequel (.ok (reader.become (.statementHead line))))
      (definition line) fun node => sequel (.ok (reader.complete node)) := by
  refine follows_expect (fun _ _ _ _ => rfl) ?_ fun token defines => ?_
  · rintro other lexer after shown pulled noDefine
    cases shown.eq_of_token pulled
    contradiction
  simp only [Reader.step, Reader.state_become, defines, Reader.become_become, identifier, bind_assoc]
  refine (follows_expect (fun _ _ _ _ => rfl) (fun token _ _ _ _ other => ?_)
    fun name named => ?_).weaken
  · simp only [Reader.step, Reader.state_become]
  simp only [Reader.step, Reader.state_become, named, Reader.become_become, pure_bind]
  exact (follows_statementEnd fun node => rfl).weaken

theorem follows_print {kind : NodeKind}
    (prints : (reader.become (.statementHead line)).step token =
      .ok (reader.become (.inside ⟨.print line kind token.lexeme, []⟩))) :
    Follows (·.Shows (some token)) 0 1 (sequel (.ok (reader.become (.statementHead line))))
      (print kind line) fun node => sequel (.ok (reader.complete node)) := by
  refine follows_advance (fun _ _ _ _ => rfl) fun other lexer after shown pulled => ?_
  cases shown.eq_of_token pulled
  rw [prints]
  exact (follows_statementEnd fun node => rfl).weaken

theorem follows_outermostForm {ahead : Lexer → Prop}
    (opens : ∀ lexer token after, ahead lexer → lexer.pull = .token token after →
      (reader.become (.statementHead line)).step token =
        (reader.become (.statementHead line)).openForm line ⟨.bare, []⟩ token) :
    Follows ahead 0 1 (sequel (.ok (reader.become (.statementHead line))))
      (do
        let node ← outermostForm line
        return .expression node)
      fun node => sequel (.ok (reader.complete node)) := by
  have inner : Expresses 1 (expression (compound 128)) := expresses_of_unfolded 127 1 rfl
  refine Follows.bind (follows_nested (by decide) ?_) fun node => follows_pure rfl
  exact (follows_form inner rfl rfl).mono (fun lexer holds token after => opens lexer token after holds)
    (Nat.le_refl _)

theorem fetches_outermostForm :
    Fetches 0 (do
      let node ← outermostForm line
      return Node.expression node) :=
  ((fetches_advance.bind _).nested (by decide)).bind _

theorem follows_opened :
    Follows Anything 0 0 (sequel (.ok (reader.become (.statementHead line)))) (opened line)
      fun node => sequel (.ok (reader.complete node)) := by
  refine follows_peek (fun token => ?_) (fun token => ?_) fun _ => ?_
  -- The head has only been looked at: each branch starts by taking it.
  · rw [Option.map_some]
    split
    · exact (fetches_expect _).bind _
    · exact fetches_advance.bind _
    · exact fetches_advance.bind _
    · exact fetches_outermostForm
  · rw [Option.map_some]
    split
    next defines => exact (follows_definition (Option.some.inj defines)).weaken
    iterate 2
      next prints =>
        refine (follows_print ?_).weaken
        simp only [Reader.step, Reader.state_become, Option.some.inj prints, Reader.become_become]
    next noDefine noPrintNum noPrintBool =>
      refine (follows_outermostForm fun lexer other after shown pulled => ?_).weaken
      cases shown.eq_of_token pulled
      simp only [Reader.step, Reader.state_become]
      split
      next kind => exact absurd (congrArg some kind) noDefine
      next kind => exact absurd (congrArg some kind) noPrintNum
      next kind => exact absurd (congrArg some kind) noPrintBool
      · rfl
  · refine (follows_outermostForm fun lexer token after shown pulled => ?_).weaken
    cases shown.eq_of_token pulled

theorem follows_body (idle : reader.state = .idle) :
    Follows (fun lexer => ∃ token, lexer.Shows (some token)) 0 1 (sequel (.ok reader)) body
      fun node => sequel (.ok (reader.complete node)) := by
  refine follows_peek (fun token => ?_) (fun token => ?_) ?_
  · split
    · exact fetches_advance.bind _
    · exact expresses_outermost.fetches
  · split
    next opens =>
      refine follows_advance (fun lexer after shown ended => absurd ended shown.not_ended)
        fun opening lexer after shown pulled => ?_
      cases shown.eq_of_token pulled
      have opens : token.kind = .leftParen := by simpa [nextIs] using opens
      simp only [Reader.step, idle, opens]
      exact follows_opened
    next noOpening =>
      have noOpening : token.kind ≠ .leftParen := by simpa [nextIs] using noOpening
      refine (expresses_outermost.follows reader ⟨.bare, []⟩ rfl).mono (fun lexer shown => ?_)
        (Nat.le_refl _)
      refine ⟨fun after ended => absurd ended shown.not_ended, fun other after pulled => ?_⟩
      cases shown.eq_of_token pulled
      simp only [Reader.step, idle]
  · rintro ⟨lexer, after, ⟨token, shown⟩, ended⟩
    exact absurd ended shown.not_ended

theorem fetches_statement : Fetches 0 statement :=
  (fetches_peek.bind _).bind _

theorem follows_statement (statements : List Node) :
    Follows (fun lexer => ∃ token, lexer.Shows (some token)) 0 1 (sequel (.ok ⟨statements, .idle⟩))
      statement fun node => sequel (.ok ⟨node :: statements, .idle⟩) :=
  (follows_body rfl).bind fun _ => follows_pure rfl

/-- A program is parsed as it is read. -/
theorem follows_program :
    Follows Anything 0 0 (sequel (.ok .start)) program fun tree lexer => (.ok tree, lexer) := by
  refine follows_collect (fun statements => ⟨statements.reverse, .idle⟩) fetches_statement
    (fun _ _ nothing => by cases nothing) (fun statements => ?_) (fun statements => ?_) []
  · refine ((follows_statement statements.reverse).mono ?_ (Nat.le_refl _)).congr fun node => by simp
    rintro lexer ⟨_ | token, shown, isSome⟩
    · cases isSome
    · exact ⟨token, shown⟩
  -- The loop stops at the end of the text only, where the reader finishes.
  · rintro parser settled ⟨_ | token, _ | ended, isNone⟩
    · have finishes := Reader.sequel_of_ended ⟨statements.reverse, .idle⟩ ended
      simp only [Reader.finish, Reader.program?, List.reverse_reverse] at finishes
      cases made : Node.program? statements with
      | none =>
        rw [made] at finishes
        exact ⟨settled, finishes⟩
      | some tree =>
        rw [made] at finishes
        exact ⟨settled, Nat.le_refl _, finishes⟩
    · cases isNone

end

end Parser

end TypedLisp
