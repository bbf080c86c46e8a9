import TypedLisp.Token
import TypedLisp.Typing

/-! Why a source text is refused. -/

set_option autoImplicit false

namespace TypedLisp

inductive Fault where
  | lexical (fault : LexicalFault)
  | unexpectedToken (lexeme : String)
  | unexpectedEnd
  | nestedTooDeep
  | illTyped (error : TypeFault)
  deriving Repr, DecidableEq

abbrev SourceError := Located Fault

/-- What stands where the grammar wants something else, the end being named too. -/
def Fault.found? : Fault → Option String
  | .unexpectedToken lexeme => some lexeme
  | .unexpectedEnd => some "EOF"
  | _ => none

def Fault.message (line : Nat) : Fault → String
  | .lexical (.illegal character) =>
      "Illegal character (" ++ character.toString ++ "), line " ++ toString line
  | .lexical (.overflow literal) =>
      "Integer overflow (" ++ literal ++ "), line " ++ toString line
  | .unexpectedToken lexeme => "Unexpected token at '" ++ lexeme ++ "', line " ++ toString line
  | .unexpectedEnd => "Unexpected token at 'EOF', line " ++ toString line
  | .nestedTooDeep => "Nesting too deep, line " ++ toString line
  | .illTyped error => "Type error, line " ++ toString line ++ ": " ++ error.message

def SourceError.message (error : SourceError) : String :=
  error.fault.message error.line

end TypedLisp
