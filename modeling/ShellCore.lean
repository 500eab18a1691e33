import ShellCore.Arith.Bindings
import ShellCore.Builtin.Getopts
import ShellCore.CommandLine.Scan
import ShellCore.DirectoryStack
import ShellCore.Environment.Listing
import ShellCore.Proofs.Arith.Meaning
import ShellCore.Proofs.Arith.Outcome
import ShellCore.Proofs.Arith.Reading
import ShellCore.Proofs.Arith.Acceptance
import ShellCore.Proofs.Arith.Blame
import ShellCore.Proofs.Variable.Tables
import ShellCore.Proofs.Effect
import ShellCore.Proofs.Variable.Entries
import ShellCore.Proofs.Arith.Effect
import ShellCore.Proofs.Variable.ReadOnly
import ShellCore.Proofs.Environment.Assign
import ShellCore.Proofs.Environment.Protection
import ShellCore.Proofs.Builtin.Invocation
import ShellCore.Proofs.Environment.Runs
import ShellCore.Proofs.Arith.Numeral
import ShellCore.Proofs.Environment.Values
import ShellCore.Proofs.Builtin.Position
import ShellCore.Proofs.Builtin.Replay
import ShellCore.Proofs.CommandLine.Arguments
import ShellCore.Proofs.Variable.Attributes
import ShellCore.Proofs.Environment.Attributes
import ShellCore.Proofs.Arith.Comparison
import ShellCore.Proofs.Environment.Failure
import ShellCore.Proofs.Arith.Simulation
import ShellCore.Proofs.Variable.Update
import ShellCore.Proofs.Environment.Store
import ShellCore.Proofs.Environment.Refinement
import ShellCore.Proofs.Arith.Enclosing
import ShellCore.Proofs.Arith.ReadBack
import ShellCore.Proofs.Environment.ReadBack
import ShellCore.Proofs.Arith.Limits
import ShellCore.Proofs.Arith.LookBehind
import ShellCore.Proofs.Variable.Confinement
import ShellCore.Proofs.Builtin.Confinement
import ShellCore.Proofs.Builtin.Scan
import ShellCore.Proofs.Variable.Guarded
import ShellCore.Proofs.Arith.Lexeme
import ShellCore.Proofs.Arith.Segments
import ShellCore.Proofs.Arith.Spacing
import ShellCore.Proofs.Arith.Written
import ShellCore.Proofs.Arith.Skipping
import ShellCore.Proofs.Variable.Scoped
import ShellCore.Proofs.Environment.Controls
import ShellCore.Proofs.Variable.OwnScopes
import ShellCore.Proofs.Variable.Removal
import ShellCore.Proofs.Environment.Listing
import ShellCore.Proofs.Arith.Exact
import ShellCore.Proofs.Arith.Constant
import ShellCore.Proofs.Arith.Dereference
import ShellCore.Proofs.Arith.Termination
import ShellCore.Proofs.Arith.Tiling
import ShellCore.Proofs.Arith.Chain
import ShellCore.Proofs.Arith.Placement
import ShellCore.Proofs.Arith.Expansion
import ShellCore.Proofs.Arith.Balance
import ShellCore.Proofs.Arith.Table
import ShellCore.Proofs.Arith.Watched
import ShellCore.Proofs.Arith.Discipline
import ShellCore.Proofs.Arith.Noting
import ShellCore.Proofs.Arith.Origin
import ShellCore.Proofs.Arith.Location
import ShellCore.Proofs.CommandLine.Finality
import ShellCore.Proofs.Builtin.Report
import ShellCore.Proofs.Arith.Reference
import ShellCore.Proofs.Arith.Assignment
import ShellCore.Proofs.Arith.Fallback
import ShellCore.Proofs.CommandLine.Places
import ShellCore.Proofs.CommandLine.Checked
import ShellCore.Proofs.CommandLine.Progress
import ShellCore.Proofs.CommandLine.Refusal
import ShellCore.Proofs.Builtin.OptionLoop
import ShellCore.Proofs.DirectoryStack.Grammar
import ShellCore.Proofs.DirectoryStack.RoundTrip
import ShellCore.Proofs.Arith.Brackets
import ShellCore.Proofs.Arith.Envelope
