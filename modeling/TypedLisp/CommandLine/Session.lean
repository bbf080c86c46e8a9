import TypedLisp.CommandLine.Options
import TypedLisp.Drawing
import TypedLisp.Graph.Flatten
import TypedLisp.Graph.Outline
import TypedLisp.Reader.Run

/-! One run of the command line.

The source is the text of an option, a file or the input. Asking for tokens wins
over all else. Otherwise the program is read, drawn to a file if that is asked
for, and printed as an outline unless the viewer is to show it. A drawing that
fails changes nothing else.
-/

set_option autoImplicit false

namespace TypedLisp.CommandLine

/-- What a run leaves behind besides files. -/
structure Response where
  exitCode : Nat
  output : String
  messages : List String
  deriving Repr, DecidableEq

def Response.errorOutput (response : Response) : String :=
  String.join (response.messages.map (· ++ "\n"))

structure Source where
  text : String
  stem : String
  deriving Repr, DecidableEq

def decode : Except FileError ByteArray → Except FileError String
  | .error error => .error error
  | .ok bytes =>
      match String.fromUTF8? bytes with
      | none => .error .invalidText
      | some text => .ok text

/-- The file to read; a dash stands for the input. -/
def Options.file? (options : Options) : Option String :=
  options.file.filter fun file => !Path.same file "-"

def failure (message : String) : Response :=
  ⟨1, "", [message]⟩

def listTokens (source : String) : Response :=
  match tokenize source with
  | .ok tokens => ⟨0, String.join (tokens.map fun token => token.display ++ "\n"), []⟩
  | .error error => failure ("Lexer error: " ++ SourceError.message (error.map .lexical))

variable {m : Type → Type} [Monad m]

def fetchSource (host : Host m) (options : Options) : m (Except FileError Source) := do
  match options.expression, options.file? with
  | some text, _ => return .ok ⟨text, "expr"⟩
  | none, some file =>
      let text := decode (← host.readFile file)
      return text.map fun text => ⟨text, (Path.stem? file).getD "ast"⟩
  | none, none =>
      let text := decode (← host.readInput)
      return text.map fun text => ⟨text, "stdin"⟩

def drawInto (host : Host m) (directory stem : String) (graph : Graph) : m (List String) := do
  let writer := DotWriter.start { directory, stem }
  let (_, writer) ← writer.draw host graph
  return (writer.written.map fun path => "Graph written to " ++ path).toList

def present (host : Host m) (options : Options) (stem : String) (program : Node) :
    m Response := do
  let graph := Graph.ofNode program
  let messages ←
    match options.dotDirectory with
    | none => pure []
    | some directory => drawInto host directory stem graph
  return ⟨0, if options.noViewer then graph.outlineText else "", messages⟩

def run (host : Host m) (options : Options) : m Response := do
  match ← fetchSource host options with
  | .error error => return failure ("Error: cannot read input: " ++ error.message)
  | .ok source =>
      if options.tokens then
        return listTokens source.text
      match parse source.text with
      | .error error => return failure ("Parser error: " ++ SourceError.message error)
      | .ok program => present host options source.stem program

end TypedLisp.CommandLine
