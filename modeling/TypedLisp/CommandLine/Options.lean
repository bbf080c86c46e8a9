/-! Command line arguments.

Options come in any order before or after the file, up to a `--`. An option that
takes a text finds it attached, or in the next argument if that is no option.
The first argument that asks for help or cannot be understood ends the reading.
-/

set_option autoImplicit false

namespace TypedLisp.CommandLine

structure Options where
  file : Option String := none
  expression : Option String := none
  tokens : Bool := false
  dotDirectory : Option String := none
  noViewer : Bool := false
  deriving Repr, DecidableEq

inductive Stop where
  | help
  | usage
  deriving Repr, DecidableEq

inductive Waiting where
  | none
  | expression
  | dotDirectory
  deriving Repr, DecidableEq

/-- The options so far; after `--` all arguments are literal. -/
structure Progress where
  options : Options := {}
  waiting : Waiting := .none
  literal : Bool := false
  deriving Repr, DecidableEq

def defaultDirectory : String := "graphviz"

namespace Progress

def setExpression (progress : Progress) (text : String) : Except Stop Progress :=
  if progress.options.expression.isSome then .error .usage
  else .ok { progress with
    options := { progress.options with expression := some text }, waiting := .none }

def setDirectory (progress : Progress) (directory : String) : Except Stop Progress :=
  if progress.options.dotDirectory.isSome || directory.isEmpty then .error .usage
  else .ok { progress with
    options := { progress.options with dotDirectory := some directory }, waiting := .none }

def setFile (progress : Progress) (file : String) : Except Stop Progress :=
  if progress.options.file.isSome || file.isEmpty then .error .usage
  else .ok { progress with options := { progress.options with file := some file } }

/-- No argument is there for the option that waits for one. -/
def settle (progress : Progress) : Except Stop Progress :=
  match progress.waiting with
  | .none => .ok progress
  | .expression => .error .usage
  | .dotDirectory => progress.setDirectory defaultDirectory

def longOption (progress : Progress) (name : String) (attached : Option String) :
    Except Stop Progress :=
  match name, attached with
  | "help", none => .error .help
  | "expr", some text => progress.setExpression text
  | "expr", none => .ok { progress with waiting := .expression }
  | "dot", some directory => progress.setDirectory directory
  | "dot", none => .ok { progress with waiting := .dotDirectory }
  | "tokens", none =>
      if progress.options.tokens then .error .usage
      else .ok { progress with options := { progress.options with tokens := true } }
  | "no-tui", none =>
      if progress.options.noViewer then .error .usage
      else .ok { progress with options := { progress.options with noViewer := true } }
  | _, _ => .error .usage

/-- The characters after a single dash: the first names an option, the rest may be its text. -/
def shortOption (progress : Progress) : List Char → Except Stop Progress
  | 'h' :: _ => .error .help
  | ['e'] => .ok { progress with waiting := .expression }
  | 'e' :: '=' :: text => progress.setExpression (String.ofList text)
  | 'e' :: text => progress.setExpression (String.ofList text)
  | _ => .error .usage

def plain (progress : Progress) (argument : String) : Except Stop Progress :=
  match progress.waiting with
  | .none => progress.setFile argument
  | .expression => progress.setExpression argument
  | .dotDirectory => progress.setDirectory argument

def step (progress : Progress) (argument : String) : Except Stop Progress :=
  if progress.literal then progress.setFile argument
  else
    match argument.toList with
    | ['-', '-'] => do
        let settled ← progress.settle
        return { settled with literal := true }
    | '-' :: '-' :: option => do
        let name := String.ofList (option.takeWhile (· ≠ '='))
        let attached :=
          match option.dropWhile (· ≠ '=') with
          | [] => none
          | _ :: text => some (String.ofList text)
        (← progress.settle).longOption name attached
    | '-' :: first :: rest => do (← progress.settle).shortOption (first :: rest)
    | _ => progress.plain argument

def finish (progress : Progress) : Except Stop Options := do
  let settled ← progress.settle
  if settled.options.expression.isSome && settled.options.file.isSome then .error .usage
  else .ok settled.options

end Progress

def parseArguments (arguments : List String) : Except Stop Options := do
  (← arguments.foldlM Progress.step {}).finish

end TypedLisp.CommandLine
