import MiniLisp.Interpreter
import MiniLisp.Main
import MiniLisp.Reader.LineTable
import MiniLisp.Shell.Repl
import MiniLisp.Shell.Script
import MiniLisp.Proofs.Execution
import MiniLisp.Proofs.Growth
import MiniLisp.Proofs.Balance
import MiniLisp.Proofs.Session
import MiniLisp.Proofs.Closure
import MiniLisp.Proofs.Grammar
import MiniLisp.Proofs.Parsing
import MiniLisp.Proofs.Double
import MiniLisp.Proofs.Numeral
import MiniLisp.Proofs.RoundTrip
import MiniLisp.Proofs.Completion
import MiniLisp.Proofs.Depth
import MiniLisp.Proofs.Adapter
import MiniLisp.Proofs.Frame
import MiniLisp.Proofs.Builtins
import MiniLisp.Proofs.Blindness
import MiniLisp.Proofs.Agreement
import MiniLisp.Proofs.Reprint
import MiniLisp.Proofs.Relocation
import MiniLisp.Proofs.Concatenation
import MiniLisp.Proofs.Lines
import MiniLisp.Proofs.Runs
import MiniLisp.Proofs.ReadEval
import MiniLisp.Proofs.ScopeHistory
import MiniLisp.Proofs.Creation
import MiniLisp.Proofs.Provenance
import MiniLisp.Proofs.FunctionGraph
import MiniLisp.Proofs.Nodes
import MiniLisp.Proofs.Nesting
import MiniLisp.Proofs.Layout
import MiniLisp.Proofs.Tracking
import MiniLisp.Proofs.Positions
import MiniLisp.Proofs.LineTable
import MiniLisp.Proofs.Attempts
import MiniLisp.Proofs.Diagnosis
import MiniLisp.Proofs.Comments
import MiniLisp.Proofs.NumberText
import MiniLisp.Proofs.NumberPrefix
import MiniLisp.Proofs.HostCalls
import MiniLisp.Proofs.Stamping
import MiniLisp.Proofs.Choice
import MiniLisp.Proofs.Listing
import MiniLisp.Proofs.Equality
