import Variorum.Binary64
import Variorum.CommandLine
import Variorum.CompileError
import Variorum.Config
import Variorum.Decimal.Notation
import Variorum.Decimal.Numeral
import Variorum.Decimal.Shortest
import Variorum.Diagnostic
import Variorum.Document.Basic
import Variorum.Document.Output
import Variorum.Document.Settings
import Variorum.Evaluation.Arithmetic
import Variorum.Evaluation.Context
import Variorum.Evaluation.Evaluator
import Variorum.Evaluation.Report
import Variorum.Expr.Basic
import Variorum.Expr.Operators
import Variorum.Expr.Parser
import Variorum.Expr.Printer
import Variorum.Expr.Reading
import Variorum.Expr.Token
import Variorum.Failure
import Variorum.Integer
import Variorum.Json.Decoder
import Variorum.Json.Numeral
import Variorum.Json.Printer
import Variorum.Json.Token
import Variorum.Json.Tree
import Variorum.Json.Units
import Variorum.Library.Arguments
import Variorum.Library.Math
import Variorum.Library.Standard
import Variorum.Library.Text
import Variorum.Main
import Variorum.Product.Odometer
import Variorum.Product.References
import Variorum.Product.Space
import Variorum.Proofs.Binary64.Conversion
import Variorum.Proofs.Binary64.Fields
import Variorum.Proofs.Binary64.Rounding
import Variorum.Proofs.Decimal.Digits
import Variorum.Proofs.Decimal.Integer
import Variorum.Proofs.Decimal.Nearest
import Variorum.Proofs.Decimal.Notation
import Variorum.Proofs.Decimal.Shortest
import Variorum.Proofs.Evaluation.Agreement
import Variorum.Proofs.Evaluation.Bindings
import Variorum.Proofs.Evaluation.Cycles
import Variorum.Proofs.Evaluation.Deepening
import Variorum.Proofs.Evaluation.Floats
import Variorum.Proofs.Evaluation.Integers
import Variorum.Proofs.Evaluation.Log
import Variorum.Proofs.Evaluation.Nesting
import Variorum.Proofs.Evaluation.Numerals
import Variorum.Proofs.Evaluation.Parts
import Variorum.Proofs.Evaluation.Quietness
import Variorum.Proofs.Evaluation.Sameness
import Variorum.Proofs.Except
import Variorum.Proofs.Expr.Completeness
import Variorum.Proofs.Expr.Exactness
import Variorum.Proofs.Expr.Floats
import Variorum.Proofs.Expr.Grammar
import Variorum.Proofs.Expr.Grouping
import Variorum.Proofs.Expr.Identifiers
import Variorum.Proofs.Expr.Lexing
import Variorum.Proofs.Expr.Lines
import Variorum.Proofs.Expr.Literals
import Variorum.Proofs.Expr.Moving
import Variorum.Proofs.Expr.Occurrence
import Variorum.Proofs.Expr.RoundTrip
import Variorum.Proofs.Expr.Scanning
import Variorum.Proofs.Expr.SliceKey
import Variorum.Proofs.Expr.Soundness
import Variorum.Proofs.Expr.Source
import Variorum.Proofs.Expr.Spelling
import Variorum.Proofs.Inference
import Variorum.Proofs.Library.Extremes
import Variorum.Proofs.Library.Lengths
import Variorum.Proofs.Library.Powers
import Variorum.Proofs.Library.Refusals
import Variorum.Proofs.Product.Axes
import Variorum.Proofs.Product.Odometer
import Variorum.Proofs.Product.Reachability
import Variorum.Proofs.Product.Selection
import Variorum.Proofs.Product.Worklist
import Variorum.Proofs.Registry.Calls
import Variorum.Proofs.Registry.Entries
import Variorum.Proofs.Registry.History
import Variorum.Proofs.Registry.Listing
import Variorum.Proofs.Registry.Ordering
import Variorum.Proofs.Slice
import Variorum.Proofs.Sorting
import Variorum.Proofs.Suite.Choices
import Variorum.Proofs.Suite.Coverage
import Variorum.Proofs.Suite.Deepening
import Variorum.Proofs.Suite.Extension
import Variorum.Proofs.Suite.FirstValues
import Variorum.Proofs.Suite.Pruning
import Variorum.Proofs.Suite.Resolution
import Variorum.Proofs.Suite.Unwarned
import Variorum.Proofs.Suite.Warnings
import Variorum.Proofs.Symbols.Indexed
import Variorum.Proofs.Symbols.Joining
import Variorum.Proofs.Symbols.Merging
import Variorum.Proofs.Symbols.Signature
import Variorum.Proofs.Symbols.WellFormed
import Variorum.Proofs.Template.Body
import Variorum.Proofs.Template.Breaks
import Variorum.Proofs.Template.Composition
import Variorum.Proofs.Template.Decoding
import Variorum.Proofs.Template.Embedding
import Variorum.Proofs.Template.Encoding
import Variorum.Proofs.Template.Escaping
import Variorum.Proofs.Template.Injection
import Variorum.Proofs.Template.Layout
import Variorum.Proofs.Template.Lines
import Variorum.Proofs.Template.Reading
import Variorum.Proofs.Template.Scanning
import Variorum.Proofs.Template.Transparency
import Variorum.Proofs.Text.Blank
import Variorum.Proofs.Text.Quoted
import Variorum.Proofs.Text.Run
import Variorum.Proofs.Value
import Variorum.Registry.Basic
import Variorum.Registry.Similarity
import Variorum.Slice
import Variorum.Suite.Compilation
import Variorum.Suite.Compiled
import Variorum.Suite.Definition
import Variorum.Suite.Resolution
import Variorum.Suite.Warnings
import Variorum.Symbols.Indexed
import Variorum.Symbols.Signature
import Variorum.Symbols.Table
import Variorum.Template.Basic
import Variorum.Template.Fragment
import Variorum.Template.Marker
import Variorum.Template.Skeleton
import Variorum.Text.Blank
import Variorum.Text.Case
import Variorum.Text.CaseTable
import Variorum.Text.Quoted
import Variorum.Text.Search
import Variorum.Text.VisibleTable
import Variorum.Value
