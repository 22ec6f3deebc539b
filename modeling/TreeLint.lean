import TreeLint.Analysis.Report
import TreeLint.Json.Printer
import TreeLint.Json.Reader
import TreeLint.Rule.Script
import TreeLint.Settings.Reader
import TreeLint.Settings.Schema
import TreeLint.Symbols.Codec
import TreeLint.Tree.Builder
import TreeLint.Tree.Snippet
import TreeLint.Version.Codec
import TreeLint.Proofs.Analysis.Interruption
import TreeLint.Proofs.Analysis.RemovalSafety
import TreeLint.Proofs.Analysis.Isolation
import TreeLint.Proofs.Analysis.Deletions
import TreeLint.Proofs.Analysis.ListRemoval
import TreeLint.Proofs.Analysis.Renaming
import TreeLint.Proofs.Analysis.RegistrationOrder
import TreeLint.Proofs.Analysis.Places
import TreeLint.Proofs.Analysis.Trivia
import TreeLint.Proofs.Analysis.Concatenation
import TreeLint.Proofs.Pass.Drops
import TreeLint.Proofs.Symbols.Growth
import TreeLint.Proofs.Symbols.Store
import TreeLint.Proofs.Tree.Building
import TreeLint.Proofs.Analysis.Capabilities
import TreeLint.Proofs.Pass.Contribution
import TreeLint.Proofs.Rule.Impartial
import TreeLint.Proofs.Pass.Mirrors
import TreeLint.Proofs.Analysis.Overrides
import TreeLint.Proofs.Symbols.Overloads
import TreeLint.Proofs.Symbols.Withholding
import TreeLint.Proofs.Symbols.Bindings
import TreeLint.Proofs.Analysis.Declarations
import TreeLint.Proofs.Tree.Nesting
import TreeLint.Proofs.Naming.Compliance
import TreeLint.Proofs.Text.Cutting
import TreeLint.Proofs.Text.ForeignText
import TreeLint.Proofs.Analysis.Bounds
import TreeLint.Proofs.Json.Codec
import TreeLint.Proofs.Finding.JsonForm
import TreeLint.Proofs.Tree.AccessChains
import TreeLint.Proofs.Tree.Kinds
import TreeLint.Proofs.Tree.Separated
import TreeLint.Proofs.Tree.ReadBack
import TreeLint.Proofs.Analysis.SoleNode
import TreeLint.Proofs.Analysis.TupleSnippets
import TreeLint.Proofs.Analysis.Attribution
import TreeLint.Proofs.Finding.SharedReporter
import TreeLint.Proofs.Settings.Documents
import TreeLint.Proofs.Settings.Validity
