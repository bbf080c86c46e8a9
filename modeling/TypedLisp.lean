import TypedLisp.EventLog
import TypedLisp.Main
import TypedLisp.Viewer
import TypedLisp.Proofs.Lexing.Adequacy
import TypedLisp.Proofs.Reading.Adequacy
import TypedLisp.Proofs.Reading.Sequencing
import TypedLisp.Proofs.Reading.Progress
import TypedLisp.Proofs.Reading.Depth
import TypedLisp.Proofs.Reading.Completion
import TypedLisp.Proofs.Reading.Parentheses
import TypedLisp.Proofs.Lexing.Spacing
import TypedLisp.Proofs.Node.Shapes
import TypedLisp.Proofs.Typing.Lines
import TypedLisp.Proofs.Writing.Lexemes
import TypedLisp.Proofs.Writing.Derivable
import TypedLisp.Proofs.Writing.Adequacy
import TypedLisp.Proofs.Descent.Following
import TypedLisp.Proofs.Descent.Productions
import TypedLisp.Proofs.Reading.Resuming
import TypedLisp.Proofs.Descent.Calls
import TypedLisp.Proofs.Typing.Construction
import TypedLisp.Proofs.Reading.Agreement
import TypedLisp.Proofs.Reading.Stopping
import TypedLisp.Proofs.Grafting.Paths
import TypedLisp.Proofs.Grafting.Shapes
import TypedLisp.Proofs.Grafting.Types
import TypedLisp.Proofs.Grafting.Texts
import TypedLisp.Proofs.Graph.Printing
import TypedLisp.Proofs.Places.Nodes
import TypedLisp.Proofs.Graph.Decoding
import TypedLisp.Proofs.Viewer.Ends
import TypedLisp.Proofs.Viewer.Redrawing
import TypedLisp.Proofs.Graph.Acyclic
import TypedLisp.Proofs.Reading.Applications
import TypedLisp.Proofs.CommandLine.Outcome
import TypedLisp.Proofs.Grammar.Extent
import TypedLisp.Proofs.Descent.Termination
import TypedLisp.Proofs.Lexing.Steps
import TypedLisp.Proofs.Viewer.Reporting
import TypedLisp.Proofs.Viewer.Scanning
import TypedLisp.Proofs.Viewer.Coloring
import TypedLisp.Proofs.Viewer.Indentation
import TypedLisp.Proofs.Lexing.Layout
import TypedLisp.Proofs.Lexing.Literals
import TypedLisp.Proofs.Reading.Ending
import TypedLisp.Proofs.Typing.Join
import TypedLisp.Proofs.Writing.Numbers
