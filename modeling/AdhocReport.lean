import AdhocReport.Calendar.Date
import AdhocReport.Calendar.Moment
import AdhocReport.Calendar.Reading
import AdhocReport.Calendar.Span
import AdhocReport.Check.Basic
import AdhocReport.Check.Issue
import AdhocReport.Check.Moment
import AdhocReport.Check.Scalar
import AdhocReport.Client.Http
import AdhocReport.Client.Local
import AdhocReport.Client.Runner
import AdhocReport.Client.Stage
import AdhocReport.Collection.Sorting
import AdhocReport.Decimal.Fixed
import AdhocReport.Decimal.Notation
import AdhocReport.Decimal.Numeral
import AdhocReport.Decimal.Shortest
import AdhocReport.Decimal.Significant
import AdhocReport.DerivedField.Analysis
import AdhocReport.DerivedField.Basic
import AdhocReport.DerivedField.Catalog
import AdhocReport.DerivedField.Request
import AdhocReport.Digest.Sha256
import AdhocReport.Expression.Basic
import AdhocReport.Expression.Mention
import AdhocReport.Expression.Parser
import AdhocReport.Expression.Record
import AdhocReport.Expression.Token
import AdhocReport.Failure
import AdhocReport.Filter.Basic
import AdhocReport.Filter.Clause
import AdhocReport.Filter.Comparison
import AdhocReport.Filter.Operator
import AdhocReport.Join.Condition
import AdhocReport.Join.Graph
import AdhocReport.Join.Pairs
import AdhocReport.Json.Basic
import AdhocReport.Json.Reader
import AdhocReport.Json.Shown
import AdhocReport.Json.Writer
import AdhocReport.Proofs.Calendar.Date
import AdhocReport.Proofs.Calendar.Moment
import AdhocReport.Proofs.Calendar.Period
import AdhocReport.Proofs.Calendar.Text
import AdhocReport.Proofs.Check.Valid
import AdhocReport.Proofs.Client.Correspondence
import AdhocReport.Proofs.Client.Effect
import AdhocReport.Proofs.Client.Http
import AdhocReport.Proofs.Client.Polling
import AdhocReport.Proofs.Client.Rest
import AdhocReport.Proofs.Client.Slot
import AdhocReport.Proofs.Collection.Sorting
import AdhocReport.Proofs.Decimal.Bits
import AdhocReport.Proofs.Decimal.Double
import AdhocReport.Proofs.Decimal.Nearest
import AdhocReport.Proofs.Decimal.Notation
import AdhocReport.Proofs.Decimal.Numeral
import AdhocReport.Proofs.Decimal.Reading
import AdhocReport.Proofs.Decimal.Rounding
import AdhocReport.Proofs.Decimal.Shortest
import AdhocReport.Proofs.DerivedField.Analysis
import AdhocReport.Proofs.DerivedField.Definition
import AdhocReport.Proofs.DerivedField.History
import AdhocReport.Proofs.DerivedField.Normalization
import AdhocReport.Proofs.DerivedField.Placement
import AdhocReport.Proofs.DerivedField.Reconciliation
import AdhocReport.Proofs.DerivedField.Staleness
import AdhocReport.Proofs.DerivedField.Update
import AdhocReport.Proofs.Expression.Breaking
import AdhocReport.Proofs.Expression.Column
import AdhocReport.Proofs.Expression.Completeness
import AdhocReport.Proofs.Expression.Cursor
import AdhocReport.Proofs.Expression.Cut
import AdhocReport.Proofs.Expression.Depiction
import AdhocReport.Proofs.Expression.Grammar
import AdhocReport.Proofs.Expression.Mention
import AdhocReport.Proofs.Expression.Parsing
import AdhocReport.Proofs.Expression.ReadBack
import AdhocReport.Proofs.Expression.Reading
import AdhocReport.Proofs.Expression.Record
import AdhocReport.Proofs.Expression.Reference
import AdhocReport.Proofs.Expression.Safety
import AdhocReport.Proofs.Expression.Scanning
import AdhocReport.Proofs.Expression.Soundness
import AdhocReport.Proofs.Expression.Tiling
import AdhocReport.Proofs.Expression.Variant
import AdhocReport.Proofs.Filter.Clause
import AdhocReport.Proofs.Filter.Comparison
import AdhocReport.Proofs.Filter.Compilation
import AdhocReport.Proofs.Filter.Number
import AdhocReport.Proofs.Filter.Search
import AdhocReport.Proofs.Join.Coverage
import AdhocReport.Proofs.Join.Graph
import AdhocReport.Proofs.Join.Pairs
import AdhocReport.Proofs.Json.Canonical
import AdhocReport.Proofs.Json.Equality
import AdhocReport.Proofs.Json.Finite
import AdhocReport.Proofs.Json.Text
import AdhocReport.Proofs.Json.Writer
import AdhocReport.Proofs.Outcome
import AdhocReport.Proofs.Query.Alias
import AdhocReport.Proofs.Query.Assembly
import AdhocReport.Proofs.Query.Attachment
import AdhocReport.Proofs.Query.Canonical
import AdhocReport.Proofs.Query.Compilation
import AdhocReport.Proofs.Query.DerivedColumn
import AdhocReport.Proofs.Query.Fitting
import AdhocReport.Proofs.Query.Grouping
import AdhocReport.Proofs.Query.Hash
import AdhocReport.Proofs.Query.JoinPlan
import AdhocReport.Proofs.Query.Joined
import AdhocReport.Proofs.Query.JoinedRows
import AdhocReport.Proofs.Query.Keeping
import AdhocReport.Proofs.Query.Mirror
import AdhocReport.Proofs.Query.MirroredRows
import AdhocReport.Proofs.Query.Omission
import AdhocReport.Proofs.Query.Picking
import AdhocReport.Proofs.Query.Preview
import AdhocReport.Proofs.Query.Record
import AdhocReport.Proofs.Query.Refusal
import AdhocReport.Proofs.Query.Repair
import AdhocReport.Proofs.Query.Request
import AdhocReport.Proofs.Query.Response
import AdhocReport.Proofs.Query.RowExpression
import AdhocReport.Proofs.Query.SingleSelect
import AdhocReport.Proofs.Query.Tree
import AdhocReport.Proofs.Query.Undated
import AdhocReport.Proofs.Schema.Association
import AdhocReport.Proofs.Schema.Introspection
import AdhocReport.Proofs.Service.Answers
import AdhocReport.Proofs.Service.Coverage
import AdhocReport.Proofs.Service.Jobs
import AdhocReport.Proofs.Service.Lifecycle
import AdhocReport.Proofs.Service.Payload
import AdhocReport.Proofs.Service.Purge
import AdhocReport.Proofs.Service.Refusal
import AdhocReport.Proofs.Service.Results
import AdhocReport.Proofs.Service.Run
import AdhocReport.Proofs.Sql.Grouping
import AdhocReport.Proofs.Sql.Layout
import AdhocReport.Proofs.Sql.Lexeme
import AdhocReport.Proofs.Sql.Matching
import AdhocReport.Proofs.Sql.OuterJoin
import AdhocReport.Proofs.Sql.Part
import AdhocReport.Proofs.Sql.Period
import AdhocReport.Proofs.Sql.Source
import AdhocReport.Proofs.Sql.Template
import AdhocReport.Proofs.Sql.Token
import AdhocReport.Query.Assembly
import AdhocReport.Query.Column
import AdhocReport.Query.Compilation
import AdhocReport.Query.Config
import AdhocReport.Query.Execution
import AdhocReport.Query.Fault
import AdhocReport.Query.JoinPlan
import AdhocReport.Query.Response
import AdhocReport.Query.Selection
import AdhocReport.Query.SingleSelect
import AdhocReport.Schema.FieldType
import AdhocReport.Schema.Model
import AdhocReport.Schema.Registry
import AdhocReport.Schema.Table
import AdhocReport.Service.Execution
import AdhocReport.Service.Payload
import AdhocReport.Service.Request
import AdhocReport.Service.Routing
import AdhocReport.Service.Store
import AdhocReport.Service.System
import AdhocReport.Settings
import AdhocReport.Sql.Aggregate
import AdhocReport.Sql.Evaluation
import AdhocReport.Sql.Fragment
import AdhocReport.Sql.Lexer
import AdhocReport.Sql.Matching
import AdhocReport.Sql.Name
import AdhocReport.Sql.Period
import AdhocReport.Sql.Quoting
import AdhocReport.Sql.Reading
import AdhocReport.Sql.Scalar
import AdhocReport.Sql.Selection
import AdhocReport.Sql.Statement
import AdhocReport.Sql.Template
import AdhocReport.Sql.Value
import AdhocReport.Sql.ValueType
import AdhocReport.Text.Blank
import AdhocReport.Text.DecimalDigit
import AdhocReport.Text.LetterCase
import AdhocReport.Text.Printable
import AdhocReport.Text.Range
import AdhocReport.Text.Word
import AdhocReport.Warehouse
import AdhocReport.Warehouse.Sample
import AdhocReport.Worker
