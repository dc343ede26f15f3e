import SemanticLayer.Catalog
import SemanticLayer.Classification
import SemanticLayer.Conversion.Aggregates
import SemanticLayer.Conversion.Basic
import SemanticLayer.Conversion.CalculatedMeasures
import SemanticLayer.Conversion.ColumnMetrics
import SemanticLayer.Conversion.Datasets
import SemanticLayer.Conversion.Dimensions
import SemanticLayer.Conversion.Joins
import SemanticLayer.Conversion.Output
import SemanticLayer.Conversion.Perspectives
import SemanticLayer.Conversion.State
import SemanticLayer.Conversion.TableSource
import SemanticLayer.Dataset
import SemanticLayer.Diagnostic
import SemanticLayer.Dimension
import SemanticLayer.DimensionGraph
import SemanticLayer.Document.Decoding
import SemanticLayer.Encoding
import SemanticLayer.Formula.Aggregate
import SemanticLayer.Formula.Basic
import SemanticLayer.Formula.Name
import SemanticLayer.Formula.Normal
import SemanticLayer.Formula.Rendering
import SemanticLayer.Identifier.Basic
import SemanticLayer.Identifier.Key
import SemanticLayer.Identifier.Registry
import SemanticLayer.Metric
import SemanticLayer.PowerQuery.Literal
import SemanticLayer.PowerQuery.Rename
import SemanticLayer.PowerQuery.Source
import SemanticLayer.Proofs.Arithmetic.Precedence
import SemanticLayer.Proofs.Arithmetic.Quotient
import SemanticLayer.Proofs.Arithmetic.Tree
import SemanticLayer.Proofs.Arithmetic.Writing
import SemanticLayer.Proofs.Conversion.Additions
import SemanticLayer.Proofs.Conversion.Aggregations
import SemanticLayer.Proofs.Conversion.CalcGraph
import SemanticLayer.Proofs.Conversion.Classes
import SemanticLayer.Proofs.Conversion.Closed
import SemanticLayer.Proofs.Conversion.Columns
import SemanticLayer.Proofs.Conversion.Contents
import SemanticLayer.Proofs.Conversion.CopiedColumns
import SemanticLayer.Proofs.Conversion.CountedRows
import SemanticLayer.Proofs.Conversion.Datasets
import SemanticLayer.Proofs.Conversion.Depth
import SemanticLayer.Proofs.Conversion.Described
import SemanticLayer.Proofs.Conversion.Dimensions
import SemanticLayer.Proofs.Conversion.Drafts
import SemanticLayer.Proofs.Conversion.DrillPaths
import SemanticLayer.Proofs.Conversion.Emission
import SemanticLayer.Proofs.Conversion.Exposed
import SemanticLayer.Proofs.Conversion.Formulas
import SemanticLayer.Proofs.Conversion.Frame
import SemanticLayer.Proofs.Conversion.FreshJoins
import SemanticLayer.Proofs.Conversion.FreshMeasures
import SemanticLayer.Proofs.Conversion.HiddenLevels
import SemanticLayer.Proofs.Conversion.Identifiers
import SemanticLayer.Proofs.Conversion.Joins
import SemanticLayer.Proofs.Conversion.KeptColumns
import SemanticLayer.Proofs.Conversion.LevelUses
import SemanticLayer.Proofs.Conversion.Levels
import SemanticLayer.Proofs.Conversion.Listing
import SemanticLayer.Proofs.Conversion.MeasureObjects
import SemanticLayer.Proofs.Conversion.Measures
import SemanticLayer.Proofs.Conversion.Moves
import SemanticLayer.Proofs.Conversion.Notes
import SemanticLayer.Proofs.Conversion.Output
import SemanticLayer.Proofs.Conversion.OwnJoins
import SemanticLayer.Proofs.Conversion.Perspectives
import SemanticLayer.Proofs.Conversion.Placeholders
import SemanticLayer.Proofs.Conversion.Progress
import SemanticLayer.Proofs.Conversion.Provenance
import SemanticLayer.Proofs.Conversion.Reachable
import SemanticLayer.Proofs.Conversion.References
import SemanticLayer.Proofs.Conversion.Relationships
import SemanticLayer.Proofs.Conversion.Renames
import SemanticLayer.Proofs.Conversion.Repeats
import SemanticLayer.Proofs.Conversion.Resolution
import SemanticLayer.Proofs.Conversion.RowCount
import SemanticLayer.Proofs.Conversion.Run
import SemanticLayer.Proofs.Conversion.SharedMetrics
import SemanticLayer.Proofs.Conversion.Subsets
import SemanticLayer.Proofs.Conversion.TimeTyping
import SemanticLayer.Proofs.Conversion.Totality
import SemanticLayer.Proofs.Conversion.UnknownTables
import SemanticLayer.Proofs.Conversion.Whole
import SemanticLayer.Proofs.Conversion.WrittenNames
import SemanticLayer.Proofs.DimensionGraph.Basic
import SemanticLayer.Proofs.DimensionGraph.Limit
import SemanticLayer.Proofs.DimensionGraph.Search
import SemanticLayer.Proofs.Elementwise
import SemanticLayer.Proofs.Except
import SemanticLayer.Proofs.Formula.Comment
import SemanticLayer.Proofs.Formula.Completeness
import SemanticLayer.Proofs.Formula.Fixpoint
import SemanticLayer.Proofs.Formula.Grammar
import SemanticLayer.Proofs.Formula.Meaning
import SemanticLayer.Proofs.Formula.Nesting
import SemanticLayer.Proofs.Formula.Normal
import SemanticLayer.Proofs.Formula.NormalForm
import SemanticLayer.Proofs.Formula.Operand
import SemanticLayer.Proofs.Formula.Reading
import SemanticLayer.Proofs.Formula.Reference
import SemanticLayer.Proofs.Formula.Remainder
import SemanticLayer.Proofs.Formula.Scanning
import SemanticLayer.Proofs.Formula.Spacing
import SemanticLayer.Proofs.Formula.Token
import SemanticLayer.Proofs.Identifier.Builder
import SemanticLayer.Proofs.Identifier.Exhaustion
import SemanticLayer.Proofs.Identifier.History
import SemanticLayer.Proofs.Identifier.Key
import SemanticLayer.Proofs.Identifier.NormalForm
import SemanticLayer.Proofs.Identifier.Registry
import SemanticLayer.Proofs.Identifier.Word
import SemanticLayer.Proofs.PowerQuery.Extraction
import SemanticLayer.Proofs.PowerQuery.Literal
import SemanticLayer.Proofs.PowerQuery.Renaming
import SemanticLayer.Proofs.PowerQuery.Steps
import SemanticLayer.Proofs.Settings.Expansion
import SemanticLayer.Proofs.Sql.Comment
import SemanticLayer.Proofs.Tabular.Classification
import SemanticLayer.Proofs.Tabular.Naming
import SemanticLayer.Proofs.Tabular.Partition
import SemanticLayer.Proofs.Tabular.Respelling
import SemanticLayer.Proofs.Text.Arguments
import SemanticLayer.Proofs.Text.Blank
import SemanticLayer.Proofs.Text.Calls
import SemanticLayer.Proofs.Text.Decimal
import SemanticLayer.Proofs.Text.Delimited
import SemanticLayer.Proofs.Text.LowerCase
import SemanticLayer.Proofs.Text.Search
import SemanticLayer.Proofs.Text.Squeeze
import SemanticLayer.Proofs.Text.Words
import SemanticLayer.Proofs.TwoRuns.Basic
import SemanticLayer.Proofs.TwoRuns.Classes
import SemanticLayer.Proofs.TwoRuns.Dimensions
import SemanticLayer.Proofs.TwoRuns.Joins
import SemanticLayer.Proofs.TwoRuns.Measures
import SemanticLayer.Proofs.TwoRuns.Respelling
import SemanticLayer.Proofs.TwoRuns.Strangers
import SemanticLayer.Proofs.TwoRuns.Tables
import SemanticLayer.Proofs.TwoRuns.Whole
import SemanticLayer.Readers.Sql.Expression
import SemanticLayer.Readers.Sql.Query
import SemanticLayer.Readers.Sql.Token
import SemanticLayer.Readers.Toml.Document
import SemanticLayer.Readers.Toml.Lexeme
import SemanticLayer.Readers.Toml.Scalar
import SemanticLayer.Settings.Basic
import SemanticLayer.Settings.Environment
import SemanticLayer.Settings.FileTree
import SemanticLayer.Settings.Loading
import SemanticLayer.Settings.Written
import SemanticLayer.Sql
import SemanticLayer.Tabular.Decoding
import SemanticLayer.Tabular.Model
import SemanticLayer.Tabular.Table
import SemanticLayer.Text.Alphanumeric
import SemanticLayer.Text.Arguments
import SemanticLayer.Text.Blank
import SemanticLayer.Text.CaseTable
import SemanticLayer.Text.LowerCase
import SemanticLayer.Text.Search
