import TypedLisp.Graph.Dot
import TypedLisp.Host

/-! Drawing a graph to a file.

A drawing goes to one file of one directory, which is made if it is missing. A
graph without vertices is refused before anything is touched.
-/

set_option autoImplicit false

namespace TypedLisp

inductive DrawingError where
  | io (error : FileError)
  | backend (reason : String)
  | emptyGraph
  deriving Repr, DecidableEq

def DrawingError.message : DrawingError → String
  | .io error => "I/O error: " ++ error.message
  | .backend reason => "rendering backend unavailable: " ++ reason
  | .emptyGraph => "nothing to render"

structure DrawingSettings where
  directory : String := "graphviz"
  stem : String := "ast"
  /-- How long the viewer waits for a key before it draws again. -/
  tickMilliseconds : Nat := 50
  deriving Repr, DecidableEq

def DrawingSettings.path (settings : DrawingSettings) : String :=
  Path.join settings.directory (settings.stem ++ ".gv")

/-- Draws graphs one after the other and remembers the last file written. -/
structure DotWriter where
  settings : DrawingSettings
  written : Option String
  deriving Repr, DecidableEq

namespace DotWriter

def start (settings : DrawingSettings) : DotWriter :=
  ⟨settings, none⟩

variable {m : Type → Type} [Monad m]

def save (host : Host m) (settings : DrawingSettings) (text : String) :
    m (Except FileError Unit) := do
  match ← host.createDirectories settings.directory with
  | .error error => return .error error
  | .ok () => host.writeFile settings.path text.toUTF8

def draw (host : Host m) (writer : DotWriter) (graph : Graph) :
    m (Except DrawingError Unit × DotWriter) := do
  if graph.vertices.isEmpty then
    return (.error .emptyGraph, writer)
  match ← save host writer.settings graph.dotText with
  | .error error => return (.error (.io error), writer)
  | .ok () => return (.ok (), { writer with written := some writer.settings.path })

end DotWriter

end TypedLisp
