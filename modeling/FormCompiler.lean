import FormCompiler.Text.RangeTable
import FormCompiler.Text.Blank
import FormCompiler.Text.Search
import FormCompiler.Text.Alphanumeric
import FormCompiler.Text.Word
import FormCompiler.Text.Lower
import FormCompiler.Text.Shown
import FormCompiler.Binary64.Basic
import FormCompiler.Binary64.Rounding
import FormCompiler.Binary64.Scaling
import FormCompiler.Binary64.Shortest
import FormCompiler.Numeral.Layout
import FormCompiler.Numeral.Reader
import FormCompiler.Json.Value
import FormCompiler.Json.Printer
import FormCompiler.Json.Document
import FormCompiler.Json.Reader
import FormCompiler.Json.Codec
import FormCompiler.Json.Decoder
import FormCompiler.Schema.Diagnostic
import FormCompiler.Schema.Violation
import FormCompiler.Schema.Field
import FormCompiler.Schema.Name
import FormCompiler.Schema.IdSource
import FormCompiler.Schema.Form
import FormCompiler.Schema.StrictMode
import FormCompiler.Record.Basic
import FormCompiler.Record.Load
import FormCompiler.Values.Coercion
import FormCompiler.Values.Basic
import FormCompiler.Compiled.Chain
import FormCompiler.Compiled.Visibility
import FormCompiler.Compiled.Form
import FormCompiler.Source.Literal
import FormCompiler.Source.Markup
import FormCompiler.Source.Expression
import FormCompiler.Source.Layout
import FormCompiler.Source.Balance
import FormCompiler.Config.Problem
import FormCompiler.Source.Settings
import FormCompiler.Source.Widget
import FormCompiler.Source.Component
import FormCompiler.Extraction.NameScan
import FormCompiler.Extraction.Basic
import FormCompiler.Instant.Calendar
import FormCompiler.Instant.Basic
import FormCompiler.Instant.Reader
import FormCompiler.Design.Basic
import FormCompiler.Pattern.Basic
import FormCompiler.Pattern.Reader
import FormCompiler.Pattern.Language
import FormCompiler.Toml.Table
import FormCompiler.Toml.Scalar
import FormCompiler.Toml.Reader
import FormCompiler.Toml.Printer
import FormCompiler.Files.Path
import FormCompiler.Files.Tree
import FormCompiler.Error
import FormCompiler.Logging.Directive
import FormCompiler.Logging.Basic
import FormCompiler.Config.Basic
import FormCompiler.Terminal.Style
import FormCompiler.Diff.Lines
import FormCompiler.Diff.Snake
import FormCompiler.Diff.Script
import FormCompiler.Diff.Report
import FormCompiler.Testing.Error
import FormCompiler.Testing.Snapshot
import FormCompiler.Testing.SnapshotStore
import FormCompiler.Testing.Case
import FormCompiler.Testing.Corpus
import FormCompiler.Testing.Runner
import FormCompiler.Proofs.Binary64.Magnitude
import FormCompiler.Proofs.Binary64.Rounding
import FormCompiler.Proofs.Binary64.Shortest
import FormCompiler.Proofs.Numeral.Layout
import FormCompiler.Proofs.Source.Rendering
import FormCompiler.Proofs.Source.Emission
import FormCompiler.Proofs.Source.Composition
import FormCompiler.Proofs.Source.Written
import FormCompiler.Proofs.Source.Balance
import FormCompiler.Proofs.Extraction.Assignments
import FormCompiler.Proofs.Extraction.RoundTrip
import FormCompiler.Proofs.Compiled.Alike
import FormCompiler.Proofs.Compiled.References
import FormCompiler.Proofs.Source.Decoding
import FormCompiler.Proofs.Source.Injectivity
import FormCompiler.Proofs.Script.Units
import FormCompiler.Proofs.Script.Token
import FormCompiler.Proofs.Script.Syntax
import FormCompiler.Proofs.Script.Reading
import FormCompiler.Proofs.Script.Semantics
import FormCompiler.Proofs.Script.Visibility
import FormCompiler.Proofs.Json.Scalars
import FormCompiler.Proofs.Json.RoundTrip
import FormCompiler.Proofs.Json.Documents
import FormCompiler.Proofs.Json.Decoding
import FormCompiler.Proofs.Json.Codec
import FormCompiler.Proofs.Record.Loading
import FormCompiler.Proofs.Record.Modes
import FormCompiler.Proofs.Record.Stored
import FormCompiler.Proofs.Record.Storage
import FormCompiler.Proofs.Design.Restoring
import FormCompiler.Proofs.Source.Nesting
import FormCompiler.Proofs.Source.Places
import FormCompiler.Proofs.Values.NumericText
import FormCompiler.Proofs.Schema.Soundness
import FormCompiler.Proofs.Files.Tree
import FormCompiler.Proofs.Testing.SnapshotText
import FormCompiler.Proofs.Testing.Actions
import FormCompiler.Proofs.Testing.SnapshotStore
import FormCompiler.Proofs.Testing.Runs
import FormCompiler.Proofs.Testing.Rerun
import FormCompiler.Proofs.Testing.Batch
import FormCompiler.Proofs.Compiled.Conditions
import FormCompiler.Proofs.Script.Literal
import FormCompiler.Proofs.Extraction.Occurrences
import FormCompiler.Proofs.Files.Names
import FormCompiler.Proofs.Testing.Copies
import FormCompiler.Proofs.Extraction.Stubs
import FormCompiler.Proofs.Source.Imbalances
import FormCompiler.Proofs.Source.Outline
import FormCompiler.Proofs.Script.Chains
import FormCompiler.Proofs.Compiled.Dependence
import FormCompiler.Proofs.Testing.SnapshotFormat
import FormCompiler.Proofs.Values.NumberText
import FormCompiler.Proofs.Diff.Edits
import FormCompiler.Proofs.Diff.Report
import FormCompiler.Proofs.Testing.Contents
import FormCompiler.Proofs.Files.WellFormed
import FormCompiler.Proofs.Testing.Listing
import FormCompiler.Proofs.Testing.Calls
import FormCompiler.Proofs.Config.Overrides
