import Bhasha.Builtin.Basic
import Bhasha.Builtin.Call
import Bhasha.Command.Basic
import Bhasha.Command.Registry
import Bhasha.CommandLine
import Bhasha.Diagnostic
import Bhasha.Evaluation.Basic
import Bhasha.Evaluation.Machine
import Bhasha.Evaluation.Operator
import Bhasha.Failure
import Bhasha.Main
import Bhasha.Numeral
import Bhasha.Parser.Basic
import Bhasha.Parser.Grammar
import Bhasha.Program.Basic
import Bhasha.Program.Equality
import Bhasha.Program.Printer
import Bhasha.Proofs.Command.Dispatch
import Bhasha.Proofs.Command.Sources
import Bhasha.Proofs.Evaluation.Bindings
import Bhasha.Proofs.Evaluation.Ceiling
import Bhasha.Proofs.Evaluation.Course
import Bhasha.Proofs.Evaluation.Depth
import Bhasha.Proofs.Evaluation.ErrorFree
import Bhasha.Proofs.Evaluation.Flow
import Bhasha.Proofs.Evaluation.Frame
import Bhasha.Proofs.Evaluation.Handover
import Bhasha.Proofs.Evaluation.Identity
import Bhasha.Proofs.Evaluation.Integrity
import Bhasha.Proofs.Evaluation.Invariant
import Bhasha.Proofs.Evaluation.Lexical
import Bhasha.Proofs.Evaluation.LimitedOutput
import Bhasha.Proofs.Evaluation.Output
import Bhasha.Proofs.Evaluation.PriorOutput
import Bhasha.Proofs.Evaluation.Redirection
import Bhasha.Proofs.Evaluation.Repetition
import Bhasha.Proofs.Evaluation.Simulation
import Bhasha.Proofs.Evaluation.Termination
import Bhasha.Proofs.Evaluation.Traversal
import Bhasha.Proofs.Evaluation.UnusedBinding
import Bhasha.Proofs.Grammar.Derivation
import Bhasha.Proofs.Numeral
import Bhasha.Proofs.Parser.Acceptance
import Bhasha.Proofs.Parser.Accounting
import Bhasha.Proofs.Parser.Completeness
import Bhasha.Proofs.Parser.FirstDiagnostic
import Bhasha.Proofs.Parser.Lookahead
import Bhasha.Proofs.Parser.Printable
import Bhasha.Proofs.Parser.Progress
import Bhasha.Proofs.Parser.Reading
import Bhasha.Proofs.Parser.Soundness
import Bhasha.Proofs.Parser.Truncation
import Bhasha.Proofs.Parser.UnclosedHash
import Bhasha.Proofs.Parser.Visits
import Bhasha.Proofs.Program.Arithmetic
import Bhasha.Proofs.Program.IntegerLiteral
import Bhasha.Proofs.Program.Joining
import Bhasha.Proofs.Program.RoundTrip
import Bhasha.Proofs.Scope
import Bhasha.Proofs.Session.Trace
import Bhasha.Proofs.Session.Transcript
import Bhasha.Proofs.Sorted
import Bhasha.Proofs.Step
import Bhasha.Proofs.Text.Quoted
import Bhasha.Proofs.Token.Layout
import Bhasha.Proofs.Token.Listing
import Bhasha.Proofs.Token.LongestMatch
import Bhasha.Proofs.Token.Pulls
import Bhasha.Proofs.Token.Scan
import Bhasha.Proofs.Token.Spelling
import Bhasha.Proofs.Token.Tiling
import Bhasha.Proofs.Value.Coherence
import Bhasha.Proofs.Value.DataText
import Bhasha.Proofs.Value.Entries
import Bhasha.Proofs.Value.FunctionText
import Bhasha.Repl
import Bhasha.Run
import Bhasha.Scope
import Bhasha.Session
import Bhasha.Sink
import Bhasha.Sorted
import Bhasha.Text.Alphabetic
import Bhasha.Text.Backspace
import Bhasha.Text.Cluster
import Bhasha.Text.Conjunct
import Bhasha.Text.Extending
import Bhasha.Text.Pictograph
import Bhasha.Text.Quoted
import Bhasha.Text.Ranges
import Bhasha.Text.SpacingMark
import Bhasha.Text.Style
import Bhasha.Text.Unprintable
import Bhasha.Text.WhiteSpace
import Bhasha.Token.Basic
import Bhasha.Token.Kind
import Bhasha.Token.Lexer
import Bhasha.Value.Basic
import Bhasha.Value.Equality
import Bhasha.Value.Inspect
import Bhasha.Value.Kind
