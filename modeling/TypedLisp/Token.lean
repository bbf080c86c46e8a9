import TypedLisp.Located
import TypedLisp.Operator

/-! Tokens: what the reader sees of a source text.

A token keeps its text as written, so the letter case of a word and the zeros of a
number are not lost in its kind.
-/

set_option autoImplicit false

namespace TypedLisp

inductive TokenKind where
  | operator (operation : Operator)
  | leftParen
  | rightParen
  | number (value : Int)
  | boolean (value : Bool)
  | identifier
  | printNum
  | printBool
  | define
  | function
  | conditional
  deriving Repr, DecidableEq

namespace TokenKind

def name : TokenKind → String
  | .operator .add => "PLUS"
  | .operator .sub => "MINUS"
  | .operator .mul => "MULTIPLY"
  | .operator .div => "DIVIDE"
  | .operator .mod => "MOD"
  | .operator .greater => "GREATER"
  | .operator .smaller => "SMALLER"
  | .operator .equal => "EQUAL"
  | .operator .and => "AND"
  | .operator .or => "OR"
  | .operator .not => "NOT"
  | .leftParen => "LPAREN"
  | .rightParen => "RPAREN"
  | .number _ => "NUMBER"
  | .boolean _ => "BOOLEAN"
  | .identifier => "ID"
  | .printNum => "PRINT_NUM"
  | .printBool => "PRINT_BOOL"
  | .define => "DEFINE"
  | .function => "FUN"
  | .conditional => "IF"

end TokenKind

structure Token where
  kind : TokenKind
  /-- The text as written. -/
  lexeme : String
  line : Nat
  deriving Repr, DecidableEq

def Token.display (token : Token) : String :=
  token.kind.name ++ "(" ++ token.lexeme ++ ") line " ++ toString token.line

def Token.shift (lines : Nat) (token : Token) : Token :=
  { token with line := token.line + lines }

inductive LexicalFault where
  | illegal (character : Char)
  | overflow (literal : String)
  deriving Repr, DecidableEq

abbrev LexicalError := Located LexicalFault

end TypedLisp
