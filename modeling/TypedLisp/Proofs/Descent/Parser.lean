import TypedLisp.Reader.Run

/-! Recursive descent with one token of lookahead.

A parser holds what a failure could leave behind: the token it has looked at but not
taken, and the number of forms it counts as open. Each production calls the ones it
is made of, and the token after a parenthesis picks the production. Productions that
hold expressions take the way to parse one as an argument.

Nothing in the productions bounds their loops and their recursion. An action that
goes on for ever has no result: `none` is what a loop comes to whose item takes none
of the text, and what a form comes to below the forms that are unfolded.
-/

set_option autoImplicit false

namespace TypedLisp

open Reader (nestingLimit)

structure Parser where
  lexer : Lexer
  lookahead : Option Token
  /-- The expression forms counted as open. -/
  depth : Nat
  /-- The greatest depth so far. -/
  deepest : Nat
  depth_le_deepest : depth ≤ deepest

/-- Actions on a parser, which keeps what they have done when they fail. -/
abbrev Parse := ExceptT SourceError (StateT Parser Option)

namespace Parser

def ofSource (source : String) : Parser :=
  ⟨.ofSource source, none, 0, 0, Nat.le_refl 0⟩

def refuse {α : Type} (token : Token) : Parse α :=
  throw ⟨.unexpectedToken token.lexeme, token.line⟩

def unexpectedEnd {α : Type} : Parse α := fun parser =>
  some (.error ⟨.unexpectedEnd, parser.lexer.line⟩, parser)

def typed {α : Type} (line : Nat) : Except TypeFault α → Parse α
  | .ok value => pure value
  | .error fault => throw ⟨.illTyped fault, line⟩

/-! ## Tokens -/

def peek : Parse (Option Token) := fun parser =>
  match parser.lookahead with
  | some token => some (.ok (some token), parser)
  | none =>
      match parser.lexer.pull with
      | .ended after => some (.ok none, { parser with lexer := after })
      | .failed error after => some (.error (error.map .lexical), { parser with lexer := after })
      | .token token after =>
          some (.ok (some token), { parser with lexer := after, lookahead := some token })

def nextIs (kind : TokenKind) (next : Option Token) : Bool :=
  next.any (·.kind == kind)

def advance : Parse Token := do
  match ← peek with
  | some token =>
      modify ({ · with lookahead := none })
      return token
  | none => unexpectedEnd

def expect (kind : TokenKind) : Parse Token := do
  let token ← advance
  if token.kind = kind then return token else refuse token

def identifier : Parse Node := do
  let token ← expect .identifier
  return .identifier token.lexeme token.line

def enter (parser : Parser) : Parser :=
  { parser with
    depth := parser.depth + 1
    deepest := max parser.deepest (parser.depth + 1)
    depth_le_deepest := Nat.le_max_right .. }

def leave (parser : Parser) : Parser :=
  { parser with
    depth := parser.depth - 1
    depth_le_deepest := Nat.le_trans (Nat.sub_le ..) parser.depth_le_deepest }

/-- One form deeper, if there is room, and out of it whatever the result. -/
def nested {α : Type} (line : Nat) (action : Parse α) : Parse α := fun parser =>
  if parser.depth ≥ nestingLimit then some (.error ⟨.nestedTooDeep, line⟩, parser)
  else (action parser.enter).map fun (result, after) => (result, after.leave)

/-- Items for as long as the next token asks for more, after those there are. -/
def collect {α : Type} (more : Option Token → Bool) (item : Parse α) (items : List α) :
    Parse (List α) := fun parser =>
  match peek parser with
  | none => none
  | some (.error error, after) => some (.error error, after)
  | some (.ok next, peeked) =>
      if more next then
        match item peeked with
        | none => none
        | some (.error error, after) => some (.error error, after)
        | some (.ok value, after) =>
            -- Where nothing is taken the same item would be asked for again, and so on.
            if after.lexer.rest.length < parser.lexer.rest.length then
              collect more item (items ++ [value]) after
            else none
      else some (.ok items, peeked)
termination_by parser => parser.lexer.rest.length

/-! ## Expressions -/

section
variable (expression : Parse Node)

def several : Nat → Parse (List Node)
  | 0 => return []
  | count + 1 => do
      let first ← expression
      let rest ← several count
      return first :: rest

def operands (operator : Operator) : Parse (List Node) :=
  if operator.variadic then do
    let first ← expression
    let second ← expression
    let rest ← collect (!nextIs .rightParen ·) expression []
    let _ ← expect .rightParen
    let tail ← typed second.line (Node.operandTail second rest)
    return [first, tail]
  else do
    let operands ← several expression operator.arity
    let _ ← expect .rightParen
    return operands

def operation (operator : Operator) (line : Nat) : Parse Node := do
  let operands ← operands expression operator
  typed line (Node.operation operator operands line)

def conditional (line : Nat) : Parse Node := do
  let condition ← expression
  let test ← typed condition.line (Node.test condition)
  let consequent ← expression
  let alternative ← expression
  let _ ← expect .rightParen
  return .untyped .conditional [test, .wrap .consequent consequent, .wrap .alternative alternative]
    line

def parameter : Parse Node := do
  let name ← identifier
  return .wrap .parameter name

def function (line : Nat) : Parse Node := do
  let opening ← expect .leftParen
  let parameters ← collect (nextIs .identifier) parameter []
  let _ ← expect .rightParen
  let body ← expression
  let _ ← expect .rightParen
  return .untyped .function [.gather .parameterList opening.line parameters, .wrap .body body] line

def argument : Parse Node := do
  let value ← expression
  return .wrap .argument value

def call (callee : Node) (line : Nat) : Parse Node := do
  let arguments ← collect (!nextIs .rightParen ·) (argument expression) []
  let closing ← expect .rightParen
  return .call callee (.gather .argumentList closing.line arguments) line

def form (line : Nat) : Parse Node := do
  let head ← advance
  match head.kind with
  | .operator operator => operation expression operator line
  | .conditional => conditional expression line
  | .function => function expression line
  | .leftParen =>
      let _ ← expect .function
      let callee ← function expression head.line
      call expression callee line
  | .identifier =>
      call expression (.wrap .calleeName (.identifier head.lexeme head.line)) line
  | _ => refuse head

end

/-- An expression, given how one is parsed that a parenthesis has opened on a line. -/
def expression (compound : Nat → Parse Node) : Parse Node := do
  let token ← advance
  match token.kind with
  | .number value => return .expression (.number value token.line)
  | .boolean value => return .expression (.boolean value token.line)
  | .identifier => return .expression (.identifier token.lexeme token.line)
  | .leftParen =>
      let node ← compound token.line
      return .expression node
  | _ => refuse token

/-- A form on a line, unfolded to some forms around each other. What is allowed to be open is up to
`nested`, not to how far a form is unfolded. -/
def compound : Nat → Nat → Parse Node
  | 0, _ => fun _ => none
  | unfolded + 1, line => nested line (form (expression (compound unfolded)) line)

/-- A form as far as any is open, and the one that is too deep. -/
def outermostForm : Nat → Parse Node :=
  compound (nestingLimit + 1)

/-! ## Statements -/

def outermost : Parse Node :=
  expression outermostForm

def definition (line : Nat) : Parse Node := do
  let _ ← expect .define
  let name ← identifier
  let value ← outermost
  let _ ← expect .rightParen
  return .untyped .definition [.wrap .definedName name, value] line

def print (kind : NodeKind) (line : Nat) : Parse Node := do
  let keyword ← advance
  let printed ← outermost
  let _ ← expect .rightParen
  return .print kind keyword.lexeme printed line

def opened (line : Nat) : Parse Node := do
  let next ← peek
  match next.map Token.kind with
  | some .define => definition line
  | some .printNum => print .printNum line
  | some .printBool => print .printBool line
  | _ =>
      let node ← outermostForm line
      return .expression node

def body : Parse Node := do
  let next ← peek
  if nextIs .leftParen next then
    let opening ← advance
    opened opening.line
  else outermost

def statement : Parse Node := do
  let body ← body
  return .wrap .statement body

def program : Parse Node := do
  let statements ← collect Option.isSome statement []
  match Node.program? statements with
  | some program => return program
  | none => unexpectedEnd

/-! ## Calls -/

/-- One call for a program: its result and the parser it leaves, if it comes to an end. -/
def run (parser : Parser) : Option (Except SourceError Node × Parser) :=
  program parser

def afterCalls (parser : Parser) : Nat → Option Parser
  | 0 => some parser
  | calls + 1 => ((parser.afterCalls calls).bind run).map Prod.snd

def results (parser : Parser) : Nat → Option (List (Except SourceError Node))
  | 0 => some []
  | calls + 1 => parser.run.bind fun (result, after) => (after.results calls).map (result :: ·)

end Parser

end TypedLisp
