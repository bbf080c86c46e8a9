import TypedLisp.Drawing
import TypedLisp.Reader.Run

/-! Events worth logging. A failed drawing is logged and otherwise forgotten. -/

set_option autoImplicit false

namespace TypedLisp

inductive Event where
  | lexed (token : Token)
  | accepted (statements : Nat)
  | drawingFailed (error : DrawingError)
  deriving Repr, DecidableEq

def Event.line : Event → String
  | .lexed token => "TRACE mlisp::parser::lexer lexed token=" ++ token.display
  | .accepted statements =>
      "DEBUG mlisp::parser::parse program accepted statements=" ++ toString statements
  | .drawingFailed error => "WARN mlisp::tree Graph creation error error=" ++ error.message

/-- Every token is logged as it is pulled, and the program once it is complete. -/
def Reading.events (reading : Reading) : List Event :=
  reading.pulled.map .lexed ++
    match reading.result with
    | .ok program => [.accepted program.statements.length]
    | .error _ => []

def drawingOutcome : Except DrawingError Unit → Bool × List Event
  | .ok () => (true, [])
  | .error error => (false, [.drawingFailed error])

end TypedLisp
