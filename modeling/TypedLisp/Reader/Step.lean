import TypedLisp.Reader.Form

/-! Reading a program one token at a time.

The token after a parenthesis decides what it opens, so no token is looked at
twice. A reader is the statements read so far and the state of the one in
progress; a state names what may come next. Only expression forms count as
nested, and a function read as a callee shares the place of its call.
-/

set_option autoImplicit false

namespace TypedLisp.Reader

/-- The greatest number of expression forms open at once. -/
def nestingLimit : Nat := 128

/-- Where the outermost expression of a statement goes. -/
inductive StatementHole where
  | bare
  | definition (line : Nat) (definedName : Node)
  | print (line : Nat) (kind : NodeKind) (keyword : String)
  deriving Repr, DecidableEq

structure Form where
  line : Nat
  hole : Hole
  deriving Repr, DecidableEq

/-- All that encloses an expression, the innermost form first. -/
structure Context where
  statement : StatementHole
  forms : List Form
  deriving Repr, DecidableEq

def Context.enter (context : Context) (line : Nat) (hole : Hole) : Context :=
  { context with forms := ⟨line, hole⟩ :: context.forms }

inductive State where
  /-- Between statements. -/
  | idle
  /-- A parenthesis has opened a statement. -/
  | statementHead (line : Nat)
  | definedName (line : Nat)
  | statementEnd (body : Node)
  /-- An expression may come, or the parenthesis that closes the innermost form. -/
  | inside (context : Context)
  /-- The innermost form lacks its closing parenthesis only. -/
  | closing (line : Nat) (whole : Whole) (context : Context)
  /-- A parenthesis has opened an expression. -/
  | head (line : Nat) (context : Context)
  /-- Two parentheses have opened a call of a function. -/
  | calleeHead (callLine line : Nat) (context : Context)
  | parametersStart (role : FunctionRole) (line : Nat) (context : Context)
  | parameters (role : FunctionRole) (line listLine : Nat) (read : List Node) (context : Context)
  deriving Repr, DecidableEq

end Reader

/-- The statements read, latest first, and the one in progress. -/
structure Reader where
  statements : List Node
  state : Reader.State
  deriving Repr, DecidableEq

namespace Reader

def start : Reader :=
  ⟨[], .idle⟩

def become (reader : Reader) (state : State) : Reader :=
  { reader with state }

def complete (reader : Reader) (body : Node) : Reader :=
  ⟨.wrap .statement body :: reader.statements, .idle⟩

def unexpected {α : Type} (token : Token) : Except SourceError α :=
  .error ⟨.unexpectedToken token.lexeme, token.line⟩

def fill (reader : Reader) (context : Context) (expression : Node) : Except SourceError Reader :=
  match context.forms with
  | [] =>
      match context.statement with
      | .bare => .ok (reader.complete expression)
      | .definition line definedName =>
          .ok (reader.become (.statementEnd (.untyped .definition [definedName, expression] line)))
      | .print line kind keyword =>
          .ok (reader.become (.statementEnd (.print kind keyword expression line)))
  | form :: outer =>
      match form.hole.fill expression with
      | .error error => .error error
      | .ok (.hole hole) =>
          .ok (reader.become (.inside { context with forms := ⟨form.line, hole⟩ :: outer }))
      | .ok (.whole whole) =>
          .ok (reader.become (.closing form.line whole { context with forms := outer }))

def close (reader : Reader) (line : Nat) (whole : Whole) (context : Context) (closeLine : Nat) :
    Except SourceError Reader :=
  match whole.close line closeLine with
  | .error error => .error error
  | .ok (.node node) => reader.fill context (.expression node)
  | .ok (.callee callLine function) =>
      .ok (reader.become (.inside (context.enter callLine (.argument function []))))

def begin (reader : Reader) (context : Context) (token : Token) : Except SourceError Reader :=
  match token.kind with
  | .number value => reader.fill context (.expression (.number value token.line))
  | .boolean value => reader.fill context (.expression (.boolean value token.line))
  | .identifier => reader.fill context (.expression (.identifier token.lexeme token.line))
  | .leftParen =>
      if context.forms.length < nestingLimit then .ok (reader.become (.head token.line context))
      else .error ⟨.nestedTooDeep, token.line⟩
  | _ => unexpected token

def openForm (reader : Reader) (line : Nat) (context : Context) (token : Token) :
    Except SourceError Reader :=
  match token.kind with
  | .operator operation =>
      .ok (reader.become (.inside (context.enter line (.operand operation []))))
  | .conditional => .ok (reader.become (.inside (context.enter line .condition)))
  | .function => .ok (reader.become (.parametersStart .expression line context))
  | .leftParen => .ok (reader.become (.calleeHead line token.line context))
  | .identifier =>
      let callee := Node.wrap .calleeName (.identifier token.lexeme token.line)
      .ok (reader.become (.inside (context.enter line (.argument callee []))))
  | _ => unexpected token

def step (reader : Reader) (token : Token) : Except SourceError Reader :=
  match reader.state with
  | .idle =>
      match token.kind with
      | .leftParen => .ok (reader.become (.statementHead token.line))
      | _ => reader.begin ⟨.bare, []⟩ token
  | .statementHead line =>
      match token.kind with
      | .define => .ok (reader.become (.definedName line))
      | .printNum => .ok (reader.become (.inside ⟨.print line .printNum token.lexeme, []⟩))
      | .printBool => .ok (reader.become (.inside ⟨.print line .printBool token.lexeme, []⟩))
      | _ => reader.openForm line ⟨.bare, []⟩ token
  | .definedName line =>
      match token.kind with
      | .identifier =>
          let name := Node.wrap .definedName (.identifier token.lexeme token.line)
          .ok (reader.become (.inside ⟨.definition line name, []⟩))
      | _ => unexpected token
  | .statementEnd body =>
      match token.kind with
      | .rightParen => .ok (reader.complete body)
      | _ => unexpected token
  | .inside context =>
      match token.kind, context.forms with
      | .rightParen, form :: outer =>
          match form.hole.whole? with
          | some whole => reader.close form.line whole { context with forms := outer } token.line
          | none => unexpected token
      | _, _ => reader.begin context token
  | .closing line whole context =>
      match token.kind with
      | .rightParen => reader.close line whole context token.line
      | _ => unexpected token
  | .head line context => reader.openForm line context token
  | .calleeHead callLine line context =>
      match token.kind with
      | .function => .ok (reader.become (.parametersStart (.callee callLine) line context))
      | _ => unexpected token
  | .parametersStart role line context =>
      match token.kind with
      | .leftParen => .ok (reader.become (.parameters role line token.line [] context))
      | _ => unexpected token
  | .parameters role line listLine read context =>
      match token.kind with
      | .identifier =>
          let parameter := Node.wrap .parameter (.identifier token.lexeme token.line)
          .ok (reader.become (.parameters role line listLine (parameter :: read) context))
      | .rightParen =>
          let collected := Node.gather .parameterList listLine read.reverse
          .ok (reader.become (.inside (context.enter line (.body role collected))))
      | _ => unexpected token

/-- The program read, if no statement is in progress and there is one at all. -/
def program? (reader : Reader) : Option Node :=
  match reader.state with
  | .idle => Node.program? reader.statements.reverse
  | _ => none

def finish (reader : Reader) (line : Nat) : Except SourceError Node :=
  match reader.program? with
  | some program => .ok program
  | none => .error ⟨.unexpectedEnd, line⟩

end TypedLisp.Reader
