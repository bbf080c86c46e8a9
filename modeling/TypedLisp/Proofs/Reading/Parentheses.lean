import TypedLisp.Proofs.Reading.Completion

/-! What the parentheses of a text open, and how many forms are open at once.

A parenthesis is told by the tokens on both sides of it: after `fun` it opens a
parameter list, after another one a function that is called, and before `define`
or a print keyword a statement. Every other one opens an expression form. The
forms that count as nested are those; a called function is open together with
its call and is not counted apart from it.
-/

set_option autoImplicit false

namespace TypedLisp

open Grammar

inductive Opening where
  | form
  | callee
  | parameters
  | statement
  deriving Repr, DecidableEq

/-- The parentheses that are open, the innermost first, and the kind of the latest token. -/
structure Nest where
  previous : Option TokenKind
  opened : List Opening
  deriving Repr, DecidableEq

namespace Nest

def start : Nest :=
  ⟨none, []⟩

def take (nest : Nest) (token : Token) : Nest where
  previous := some token.kind
  opened :=
    match token.kind, nest.previous with
    | .leftParen, some .function => .parameters :: nest.opened
    | .leftParen, some .leftParen => .callee :: nest.opened
    | .leftParen, _ => .form :: nest.opened
    | .rightParen, _ => nest.opened.tail
    | .define, some .leftParen | .printNum, some .leftParen | .printBool, some .leftParen =>
        .statement :: nest.opened.tail
    | _, _ => nest.opened

def after (tokens : List Token) : Nest :=
  tokens.foldl take start

/-- The forms open after some tokens, called functions being open with their calls. -/
def forms (tokens : List Token) : Nat :=
  (after tokens).opened.count .form

/-- The forms open after some tokens, called functions being counted too. -/
def formsAndCallees (tokens : List Token) : Nat :=
  forms tokens + (after tokens).opened.count .callee

theorem after_concat (tokens : List Token) (token : Token) :
    after (tokens ++ [token]) = (after tokens).take token :=
  List.foldl_append

end Nest

namespace Reader

/-! ## The parentheses of a state -/

def FunctionRole.opened : FunctionRole → List Opening
  | .expression => [.form]
  | .callee _ => [.callee, .form]

def Hole.opened : Hole → List Opening
  | .body role _ => role.opened
  | _ => [.form]

def Whole.opened : Whole → List Opening
  | .function role _ _ => role.opened
  | _ => [.form]

def StatementHole.opened : StatementHole → List Opening
  | .bare => []
  | _ => [.statement]

def Context.opened (context : Context) : List Opening :=
  context.forms.flatMap (·.hole.opened) ++ context.statement.opened

def State.opened : State → List Opening
  | .idle => []
  | .statementHead _ => [.form]
  | .definedName _ | .statementEnd _ => [.statement]
  | .inside context => context.opened
  | .closing _ whole context => whole.opened ++ context.opened
  | .head _ context => .form :: context.opened
  | .calleeHead _ _ context => .callee :: .form :: context.opened
  | .parametersStart role _ context => role.opened ++ context.opened
  | .parameters role _ _ _ context => .parameters :: (role.opened ++ context.opened)

/-- What a state says about the token before it, so far as parentheses are told by it. -/
def State.Follows (previous : Option TokenKind) : State → Prop
  | .idle | .inside _ => previous ≠ some .leftParen ∧ previous ≠ some .function
  | .statementHead _ | .head _ _ => previous = some .leftParen
  | .parametersStart _ _ _ => previous = some .function
  | _ => True

/-- The parentheses open in a state are those of a nest. -/
structure State.Matches (state : State) (nest : Nest) : Prop where
  opened : state.opened = nest.opened
  follows : state.Follows nest.previous

/-! ## Counts -/

theorem FunctionRole.count_opened (role : FunctionRole) : role.opened.count .form = 1 := by
  cases role <;> rfl

theorem Hole.count_opened (hole : Hole) : hole.opened.count .form = 1 := by
  cases hole with
  | body role parameters => exact role.count_opened
  | operand | condition | thenBranch | elseBranch | argument => rfl

theorem Whole.count_opened (whole : Whole) : whole.opened.count .form = 1 := by
  cases whole with
  | function role parameters body => exact role.count_opened
  | operation | conditional | call => rfl

theorem Context.count_opened (context : Context) : context.opened.count .form = context.forms.length := by
  obtain ⟨statement, forms⟩ := context
  have outside : statement.opened.count .form = 0 := by cases statement <;> rfl
  rw [Context.opened, List.count_append, outside, Nat.add_zero]
  induction forms with
  | nil => rfl
  | cons form forms ih =>
    rw [List.flatMap_cons, List.count_append, form.hole.count_opened, ih, List.length_cons,
      Nat.add_comm]

theorem FormsWithin.length_le {forms : List Form} (within : FormsWithin forms) :
    forms.length ≤ nestingLimit := by
  cases forms with
  | nil => exact Nat.zero_le _
  | cons form outer => exact within.1

-- A state in which a form has been opened but not entered counts one more than its context, which has room.
theorem State.Within.count_le {state : State} (within : state.Within) :
    state.opened.count .form ≤ nestingLimit := by
  cases state with
  | idle | definedName | statementEnd => exact Nat.zero_le _
  | statementHead line => exact bare_hasRoom.room
  | inside context =>
    rw [State.opened, context.count_opened]
    exact within.forms.length_le
  | closing line whole context =>
    have room := within.2.room
    rw [State.opened, List.count_append, whole.count_opened, context.count_opened]
    omega
  | head line context =>
    have room := within.room
    rw [State.opened, List.count_cons_self, context.count_opened]
    omega
  | calleeHead callLine line context =>
    have room := within.room
    rw [State.opened, List.count_cons_of_ne (by decide), List.count_cons_self, context.count_opened]
    omega
  | parametersStart role line context =>
    have room := within.room
    rw [State.opened, List.count_append, role.count_opened, context.count_opened]
    omega
  | parameters role line listLine read context =>
    have room := within.2.room
    rw [State.opened, List.count_cons_of_ne (by decide), List.count_append, role.count_opened,
      context.count_opened]
    omega

/-! ## Steps -/

section
variable {reader next : Reader} {context : Context} {token : Token} {nest : Nest}

theorem Hole.fill_opened {hole : Hole} {expression : Node} {filled : Filled}
    (taken : hole.fill expression = .ok filled) :
    hole.opened = match filled with
      | .hole hole => hole.opened
      | .whole whole => whole.opened := by
  cases hole with
  | operand operator operands =>
    dsimp only [Hole.fill] at taken
    split at taken <;> cases taken <;> rfl
  | condition =>
    dsimp only [Hole.fill] at taken
    split at taken <;> cases taken
    rfl
  | thenBranch | elseBranch | body | argument => cases taken; rfl

theorem Hole.whole?_opened {hole : Hole} {whole : Whole} (closable : hole.whole? = some whole) :
    hole.opened = whole.opened := by
  cases hole with
  | operand operator operands =>
    dsimp only [Hole.whole?] at closable
    split at closable <;> cases closable
    rfl
  | argument => cases closable; rfl
  | condition | thenBranch | elseBranch | body => cases closable

theorem fill_matches {expression : Node} (taken : reader.fill context expression = .ok next)
    (same : context.opened = nest.opened)
    (apart : nest.previous ≠ some .leftParen ∧ nest.previous ≠ some .function) :
    next.state.Matches nest := by
  obtain ⟨statement, forms⟩ := context
  cases forms with
  | nil =>
    cases statement with
    | bare =>
      cases taken
      exact ⟨same, apart⟩
    | definition | print =>
      cases taken
      exact ⟨same, trivial⟩
  | cons form outer =>
    simp only [fill] at taken
    split at taken
    next => cases taken
    next hole filled =>
      cases taken
      have kept : form.hole.opened = hole.opened := Hole.fill_opened filled
      rw [Context.opened, List.flatMap_cons, kept] at same
      exact ⟨same, apart⟩
    next whole filled =>
      cases taken
      have kept : form.hole.opened = whole.opened := Hole.fill_opened filled
      rw [Context.opened, List.flatMap_cons, kept, List.append_assoc] at same
      exact ⟨same, trivial⟩

theorem close_matches {line closeLine : Nat} {whole : Whole}
    (taken : reader.close line whole context closeLine = .ok next)
    (same : whole.opened ++ context.opened = nest.opened) (closes : token.kind = .rightParen) :
    next.state.Matches (nest.take token) := by
  have popped : (nest.take token).opened = nest.opened.tail := by simp [Nest.take, closes]
  have apart : (nest.take token).previous ≠ some .leftParen ∧
      (nest.take token).previous ≠ some .function := by
    simp [Nest.take, closes]
  unfold close at taken
  split at taken
  next => cases taken
  next node closed =>
    refine fill_matches taken ?_ apart
    have form : whole.opened = [.form] := by
      cases whole with
      | function role parameters body =>
        cases role with
        | expression => rfl
        | callee callLine => cases closed
      | operation | conditional | call => rfl
    rw [popped, ← same, form]
    rfl
  next callLine function closed =>
    cases taken
    refine ⟨?_, apart⟩
    -- The parenthesis closes the function; the form below it is its call, now waiting for arguments.
    have callee : whole.opened = [.callee, .form] := by
      cases whole with
      | function role parameters body =>
        cases role with
        | expression => cases closed
        | callee callLine => rfl
      | operation operator operands =>
        obtain ⟨node, -, closed⟩ := Whole.operation_close_eq_ok_iff.mp closed
        cases closed
      | conditional | call => cases closed
    rw [popped, ← same, callee]
    rfl

theorem begin_matches (taken : reader.begin context token = .ok next)
    (same : context.opened = nest.opened)
    (apart : nest.previous ≠ some .leftParen ∧ nest.previous ≠ some .function) :
    next.state.Matches (nest.take token) := by
  unfold begin at taken
  split at taken
  case h_4 kind =>
    split at taken
    next =>
      cases taken
      refine ⟨?_, congrArg some kind⟩
      simp [State.opened, Nest.take, kind, apart, same]
    next => cases taken
  case h_5 => cases taken
  all_goals
    next kind =>
      refine fill_matches taken ?_ ?_
      · simp [Nest.take, kind, same]
      · simp [Nest.take, kind]

theorem openForm_matches {line : Nat} (taken : reader.openForm line context token = .ok next)
    (same : .form :: context.opened = nest.opened) (follows : nest.previous = some .leftParen) :
    next.state.Matches (nest.take token) := by
  unfold openForm at taken
  split at taken
  case h_6 => cases taken
  all_goals
    next kind =>
      cases taken
      constructor
      · simp [State.opened, Context.opened, Context.enter, Hole.opened, FunctionRole.opened, Nest.take,
          kind, follows, ← same]
      · simp [State.Follows, Nest.take, kind]

/-- Every token keeps the state in step with the parentheses. -/
theorem step_matches (taken : reader.step token = .ok next) (same : reader.state.Matches nest) :
    next.state.Matches (nest.take token) := by
  obtain ⟨opened, follows⟩ := same
  have moved := moves_of_step taken
  generalize reader.state = state at opened follows moved
  cases moved with
  | opening kind =>
    refine ⟨?_, congrArg some kind⟩
    simp [State.opened, Nest.take, kind, follows.1, follows.2, ← opened]
  | bare noOpening begun => exact begin_matches begun opened follows
  | define kind | printNum kind | printBool kind =>
    -- The word behind the parenthesis tells that it opened a statement and not a form.
    have follows : nest.previous = some .leftParen := follows
    constructor
    · simp [State.opened, Context.opened, StatementHole.opened, Nest.take, kind, follows, ← opened]
    · simp [State.Follows, Nest.take, kind]
  | statementForm formOpened => exact openForm_matches formOpened opened follows
  | definedName kind =>
    constructor
    · simp [State.opened, Context.opened, StatementHole.opened, Nest.take, kind, ← opened]
    · simp [State.Follows, Nest.take, kind]
  | statementEnd kind =>
    constructor
    · simp [complete, State.opened, Nest.take, kind, ← opened]
    · simp [complete, State.Follows, Nest.take, kind]
  | part begun => exact begin_matches begun opened follows
  | innermost kind closable closed =>
    refine close_matches closed ?_ kind
    rw [← Hole.whole?_opened closable, ← opened]
    simp [State.opened, Context.opened]
  | closing kind closed => exact close_matches closed opened kind
  | head formOpened => exact openForm_matches formOpened opened follows
  | callee kind => exact ⟨opened.trans (by simp [Nest.take, kind]), congrArg some kind⟩
  | parametersOpening kind =>
    -- Behind the keyword the parenthesis opens a list of parameters, not a form.
    have follows : nest.previous = some .function := follows
    refine ⟨?_, trivial⟩
    simpa [State.opened, Nest.take, kind, follows] using opened
  | parameter kind => exact ⟨opened.trans (by simp [Nest.take, kind]), trivial⟩
  | parametersClosing kind =>
    constructor
    · simp [State.opened, Context.opened, Context.enter, Hole.opened, Nest.take, kind, ← opened]
    · simp [State.Follows, Nest.take, kind]

end

/-! ## Runs -/

theorem feed_matches {reader next : Reader} {tokens : List Token} {nest : Nest}
    (taken : reader.feed tokens = .ok next) (same : reader.state.Matches nest) :
    next.state.Matches (tokens.foldl Nest.take nest) := by
  refine feed_induction (fun before reader => reader.state.Matches (before.foldl Nest.take nest))
    same (fun same stepped => ?_) taken
  rw [List.foldl_append]
  exact step_matches stepped same

theorem start_matches : start.state.Matches Nest.start :=
  ⟨rfl, by simp [Nest.start], by simp [Nest.start]⟩

section
variable {tokens : List Token} {next : Reader}

theorem forms_eq_count (taken : start.feed tokens = .ok next) :
    Nest.forms tokens = next.state.opened.count .form := by
  rw [(feed_matches taken start_matches).opened]
  rfl

theorem forms_le_of_feed (taken : start.feed tokens = .ok next) : Nest.forms tokens ≤ 128 := by
  rw [forms_eq_count taken]
  exact (start_within.feed taken).state.count_le

theorem forms_of_tooDeep {context : Context} {opening : Token} (taken : start.feed tokens = .ok next)
    (state : next.state = .inside context) (opens : opening.kind = .leftParen)
    (deep : nestingLimit ≤ context.forms.length) : Nest.forms (tokens ++ [opening]) = 129 := by
  have same := feed_matches taken start_matches
  have within := (start_within.feed taken).state
  rw [state] at same within
  have limit : context.forms.length = nestingLimit :=
    Nat.le_antisymm within.forms.length_le deep
  obtain ⟨opened, follows⟩ := same
  -- A reader inside a form is behind no parenthesis and no function keyword, so this one is a form's.
  have opened : context.opened = (Nest.after tokens).opened := opened
  have pushed : ((Nest.after tokens).take opening).opened = .form :: context.opened := by
    rw [opened]
    simp [Nest.take, opens, Nest.after, follows.1, follows.2]
  rw [Nest.forms, Nest.after_concat, pushed, List.count_cons_self, context.count_opened, limit]
  rfl

end

end Reader

/-! ## Texts -/

section
variable {source : String}

theorem parse_of_deep_form {before later rest : List Token} {opening : Token} {tree : Node}
    (split : (Lexer.ofSource source).lexAll.tokens = before ++ opening :: later)
    (opens : opening.kind = .leftParen) (deep : 128 < Nest.forms (before ++ [opening]))
    (program : Program (before ++ opening :: rest) tree) :
    ((Lexer.ofSource source).read.pulled = before ++ [opening] ∧
      parse source = .error ⟨.nestedTooDeep, opening.line⟩) ∨
    ∃ error, parse source = .error error ∧ (Lexer.ofSource source).read.pulled <+: before := by
  rw [List.append_cons] at split program
  have untaken {more : List Token} {last : Reader} :
      Reader.start.feed (before ++ [opening] ++ more) ≠ .ok last := fun taken => by
    obtain ⟨next, taken, -⟩ := Reader.feed_append_eq_ok_iff.mp taken
    exact absurd (Reader.forms_le_of_feed taken) (by omega)
  rcases Reader.start.run_cases (.ofSource source) with ⟨last, taken, -⟩ |
    ⟨before', token, later', next, error, after, split', taken, refused, run, -⟩
  · rw [split] at taken
    exact absurd taken untaken
  have read : (Lexer.ofSource source).read = ⟨.error error, before' ++ [token], after⟩ := run
  have failed : parse source = .error error := by rw [parse, read]
  rw [List.append_cons] at split'
  have here : before ++ [opening] = before' ++ [token] →
      (Lexer.ofSource source).read.pulled = before ++ [opening] ∧
        parse source = .error ⟨.nestedTooDeep, opening.line⟩ := fun same => by
    obtain ⟨rfl, last⟩ := List.append_inj' same rfl
    cases last
    refine ⟨by rw [read], ?_⟩
    rw [failed]
    cases Reader.refuses_of_step refused with
    | unexpected => exact absurd program (Reader.hopeless_of_unexpected taken refused rest tree)
    | tooDeep => rfl
    | illTyped _ _ noOpening => exact absurd opens noOpening
  -- The reading stops after a prefix of the same tokens: at the parenthesis or before it, since
  -- nothing that goes on behind it is taken.
  have reached : before ++ [opening] <+: (Lexer.ofSource source).lexAll.tokens := ⟨later, split.symm⟩
  have stopped : before' ++ [token] <+: (Lexer.ofSource source).lexAll.tokens := ⟨later', split'.symm⟩
  rcases List.prefix_or_prefix_of_prefix reached stopped with within | within
  · rcases List.prefix_concat_iff.mp within with same | ⟨more, rfl⟩
    · exact .inl (here same)
    · exact absurd taken untaken
  · rcases List.prefix_concat_iff.mp within with same | earlier
    · exact .inl (here same.symm)
    · exact .inr ⟨error, failed, by rw [read]; exact earlier⟩

theorem forms_le_of_parse {tree : Node} (parsed : parse source = .ok tree) {before : List Token}
    (within : before <+: (Lexer.ofSource source).lexAll.tokens) : Nest.forms before ≤ 128 := by
  rw [parse_eq_outcome] at parsed
  obtain ⟨last, taken, -, -⟩ := Reader.outcome_eq_ok_iff.mp parsed
  obtain ⟨later, split⟩ := within
  rw [← split] at taken
  obtain ⟨next, taken, -⟩ := Reader.feed_append_eq_ok_iff.mp taken
  exact Reader.forms_le_of_feed taken

theorem forms_of_parse_tooDeep {line : Nat} (parsed : parse source = .error ⟨.nestedTooDeep, line⟩) :
    ∃ before opening, (Lexer.ofSource source).read.pulled = before ++ [opening] ∧
      before ++ [opening] <+: (Lexer.ofSource source).lexAll.tokens ∧ opening.kind = .leftParen ∧
      opening.line = line ∧ Nest.forms (before ++ [opening]) = 129 := by
  obtain ⟨before, token, next, within, taken, refused, pulled⟩ := refusal_of_parse parsed rfl
  cases Reader.refuses_of_step refused with
  | tooDeep state opens deep =>
    exact ⟨before, token, pulled, within, opens, rfl,
      Reader.forms_of_tooDeep taken state opens deep⟩

end

/-- The limit is on forms, a called function being open with its call. -/
theorem parse_nesting_limit (source : String) :
    (∀ before later rest opening tree,
      (Lexer.ofSource source).lexAll.tokens = before ++ opening :: later →
      opening.kind = .leftParen → 128 < Nest.forms (before ++ [opening]) →
      Program (before ++ opening :: rest) tree →
      ((Lexer.ofSource source).read.pulled = before ++ [opening] ∧
        parse source = .error ⟨.nestedTooDeep, opening.line⟩) ∨
      ∃ error, parse source = .error error ∧ (Lexer.ofSource source).read.pulled <+: before) ∧
    (∀ tree before, parse source = .ok tree →
      before <+: (Lexer.ofSource source).lexAll.tokens → Nest.forms before ≤ 128) ∧
    ∀ line, parse source = .error ⟨.nestedTooDeep, line⟩ →
      ∃ before opening, (Lexer.ofSource source).read.pulled = before ++ [opening] ∧
        before ++ [opening] <+: (Lexer.ofSource source).lexAll.tokens ∧ opening.kind = .leftParen ∧
        opening.line = line ∧ Nest.forms (before ++ [opening]) = 129 ∧
        128 < Nest.formsAndCallees (before ++ [opening]) := by
  refine ⟨fun _ _ _ _ _ => parse_of_deep_form, fun _ _ parsed => forms_le_of_parse parsed,
    fun line parsed => ?_⟩
  obtain ⟨before, opening, pulled, within, opens, same, count⟩ := forms_of_parse_tooDeep parsed
  refine ⟨before, opening, pulled, within, opens, same, count, ?_⟩
  unfold Nest.formsAndCallees
  omega

/-! ## Functions called where they stand -/

def nestedCallees (levels : Nat) : String :=
  String.ofList ((List.replicate levels ['(', '(', 'f', 'u', 'n', '(', ')']).flatten ++
    'x' :: (List.replicate levels [')', ')']).flatten)

def calleeTokens : List Token :=
  [⟨.leftParen, "(", 1⟩, ⟨.leftParen, "(", 1⟩, ⟨.function, "fun", 1⟩, ⟨.leftParen, "(", 1⟩,
   ⟨.rightParen, ")", 1⟩]

def calleeEndTokens : List Token :=
  [⟨.rightParen, ")", 1⟩, ⟨.rightParen, ")", 1⟩]

def nestedCalleeTokens (levels : Nat) : List Token :=
  (List.replicate levels calleeTokens).flatten ++
    ⟨.identifier, "x", 1⟩ :: (List.replicate levels calleeEndTokens).flatten

theorem tiles_replicate {line : Nat} {piece : List Char} {tokens : List Token}
    (tiles : ∀ rest, Tiles line (piece ++ rest) tokens line rest) (count : Nat) (rest : List Char) :
    Tiles line ((List.replicate count piece).flatten ++ rest) (List.replicate count tokens).flatten
      line rest := by
  induction count with
  | zero => exact .done
  | succ count ih =>
    simp only [List.replicate_succ, List.flatten_cons, List.append_assoc]
    exact (tiles _).trans ih

theorem tiles_nestedCallees (levels : Nat) :
    Tiles 1 (nestedCallees levels).toList (nestedCalleeTokens levels) 1 [] := by
  have opening (rest : List Char) :
      (⟨'(' :: rest, 1⟩ : Lexer).pull = .token ⟨.leftParen, "(", 1⟩ ⟨rest, 1⟩ := rfl
  have closing (rest : List Char) :
      (⟨')' :: rest, 1⟩ : Lexer).pull = .token ⟨.rightParen, ")", 1⟩ ⟨rest, 1⟩ := rfl
  have function (rest : List Char) : (⟨'f' :: 'u' :: 'n' :: '(' :: rest, 1⟩ : Lexer).pull =
      .token ⟨.function, "fun", 1⟩ ⟨'(' :: rest, 1⟩ := rfl
  have name : (⟨'x' :: (List.replicate levels [')', ')']).flatten, 1⟩ : Lexer).pull =
      .token ⟨.identifier, "x", 1⟩ ⟨(List.replicate levels [')', ')']).flatten, 1⟩ := by
    cases levels <;> rfl
  have opens (rest : List Char) :
      Tiles 1 (['(', '(', 'f', 'u', 'n', '(', ')'] ++ rest) calleeTokens 1 rest :=
    (Lexer.tiles_of_pull (opening _)).trans <| (Lexer.tiles_of_pull (opening _)).trans <|
      (Lexer.tiles_of_pull (function _)).trans <| (Lexer.tiles_of_pull (opening _)).trans <|
        Lexer.tiles_of_pull (closing rest)
  have closes (rest : List Char) : Tiles 1 ([')', ')'] ++ rest) calleeEndTokens 1 rest :=
    (Lexer.tiles_of_pull (closing _)).trans (Lexer.tiles_of_pull (closing rest))
  have ends := tiles_replicate closes levels []
  rw [List.append_nil] at ends
  rw [nestedCallees, String.toList_ofList]
  exact (tiles_replicate opens levels _).trans ((Lexer.tiles_of_pull name).trans ends)

theorem lexAll_nestedCallees (levels : Nat) :
    (Lexer.ofSource (nestedCallees levels)).lexAll = ⟨nestedCalleeTokens levels, none, ⟨[], 1⟩⟩ := by
  rw [Lexer.ofSource, Lexer.lexAll_of_tiles (tiles_nestedCallees levels),
    Lexer.lexAll_of_allBlank (List.forall_mem_nil _), List.append_nil]
  rfl

theorem parse_nestedCallees : ∃ tree, parse (nestedCallees 65) = .ok tree := by
  have accepted : (Reader.start.outcome ⟨nestedCalleeTokens 65, none, ⟨[], 1⟩⟩).isOk := by
    decide +kernel
  rw [← lexAll_nestedCallees, ← parse_eq_outcome] at accepted
  cases parsed : parse (nestedCallees 65) with
  | error error =>
    rw [parsed] at accepted
    cases accepted
  | ok tree => exact ⟨tree, rfl⟩

theorem parse_nestedCallees_tooDeep : parse (nestedCallees 129) = .error ⟨.nestedTooDeep, 1⟩ := by
  rw [parse_eq_outcome, lexAll_nestedCallees]
  decide +kernel

def innermostCallee : List Token :=
  (List.replicate 65 calleeTokens).flatten

theorem innermostCallee_within :
    innermostCallee <+: (Lexer.ofSource (nestedCallees 65)).lexAll.tokens := by
  rw [lexAll_nestedCallees]
  exact List.prefix_append ..

/-- Among 65 calls of functions there are 65 forms open at most, and the last of 129 is one too many. -/
theorem parse_nesting_limit_callees :
    Nest.forms innermostCallee ≤ 128 ∧
      parse (nestedCallees 129) = .error ⟨.nestedTooDeep, 1⟩ ∧
      ∃ before opening, (Lexer.ofSource (nestedCallees 129)).read.pulled = before ++ [opening] ∧
        opening.kind = .leftParen ∧ opening.line = 1 ∧ Nest.forms (before ++ [opening]) = 129 := by
  obtain ⟨tree, parsed⟩ := parse_nestedCallees
  obtain ⟨-, accepted, -⟩ := parse_nesting_limit (nestedCallees 65)
  obtain ⟨-, -, refused⟩ := parse_nesting_limit (nestedCallees 129)
  obtain ⟨before, opening, pulled, -, opens, line, count, -⟩ := refused 1 parse_nestedCallees_tooDeep
  exact ⟨accepted tree innermostCallee parsed innermostCallee_within, parse_nestedCallees_tooDeep,
    before, opening, pulled, opens, line, count⟩

/-- More than 128 forms are open at once in a text that is read, if called functions are counted. -/
theorem nestedCallees_accepted :
    ∃ tree before, parse (nestedCallees 65) = .ok tree ∧
      before <+: (Lexer.ofSource (nestedCallees 65)).lexAll.tokens ∧
      128 < Nest.formsAndCallees before := by
  obtain ⟨tree, parsed⟩ := parse_nestedCallees
  exact ⟨tree, innermostCallee, parsed, innermostCallee_within, by decide +kernel⟩

end TypedLisp
