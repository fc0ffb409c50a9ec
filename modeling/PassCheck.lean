import PassCheck.Assoc
import PassCheck.Build.Batch
import PassCheck.Build.Load
import PassCheck.Codegen
import PassCheck.Command.Compile
import PassCheck.Command.Tests
import PassCheck.Command.Time
import PassCheck.Graph.Dot
import PassCheck.Main
import PassCheck.Proofs.Assoc
import PassCheck.Proofs.Build.Atomic
import PassCheck.Proofs.Build.CompileMode
import PassCheck.Proofs.Build.EndToEnd
import PassCheck.Proofs.Build.Isolation
import PassCheck.Proofs.Build.Native
import PassCheck.Proofs.Command.Tests
import PassCheck.Proofs.Graph.Edges
import PassCheck.Proofs.Lint.Check
import PassCheck.Proofs.Lint.Compile
import PassCheck.Proofs.Lint.Confluence
import PassCheck.Proofs.Lint.Fault
import PassCheck.Proofs.Lint.Meaning
import PassCheck.Proofs.Lint.Rewrite
import PassCheck.Proofs.Pass.Isolation
import PassCheck.Proofs.Pass.Tracing
import PassCheck.Proofs.Sexp.Seam
import PassCheck.Recipe
import PassCheck.Register
import PassCheck.Sexp.Printer
import PassCheck.Timing.Figure
import PassCheck.Timing.Record
import PassCheck.Proofs.Pass.Order
import PassCheck.Proofs.Pass.Wildcard
import PassCheck.Proofs.Pass.Folder
import PassCheck.Proofs.World.Proper
import PassCheck.Proofs.Pass.Discovery
import PassCheck.Proofs.Pass.Indices
import PassCheck.Proofs.Build.Offer
import PassCheck.Proofs.Command.Loading
import PassCheck.Proofs.Sexp.Layout
import PassCheck.Proofs.Sexp.LineEnds
import PassCheck.Proofs.Timing.Medians
import PassCheck.Proofs.Timing.Rows
