import MetricQuery.Word
import MetricQuery.Text.Blank
import MetricQuery.Text.Letter
import MetricQuery.Text.Lowercase
import MetricQuery.Text.Quoted
import MetricQuery.SortedMap
import MetricQuery.Decimal.Layout
import MetricQuery.Decimal.Reader
import MetricQuery.Cell
import MetricQuery.Token.Scan
import MetricQuery.Json.Reader
import MetricQuery.Query.Reading
import MetricQuery.Dataset
import MetricQuery.Pages
import MetricQuery.Selection.Statement
import MetricQuery.Instant
import MetricQuery.Cell.Json
import MetricQuery.Query.Json
import MetricQuery.Selection.Json
import MetricQuery.Catalog.Sample
import MetricQuery.Catalog.Loading
import MetricQuery.Saved.Json
import MetricQuery.Session
import MetricQuery.Console
import MetricQuery.Main
import MetricQuery.Proofs.Token.Layout
import MetricQuery.Proofs.Query.Clauses
import MetricQuery.Proofs.Query.Grammar
import MetricQuery.Proofs.Selection.RoundTrip
import MetricQuery.Proofs.Engine
import MetricQuery.Proofs.Session
import MetricQuery.Proofs.Session.Restoring
import MetricQuery.Proofs.Grouping
import MetricQuery.Proofs.Saved.Runs
import MetricQuery.Proofs.Session.Steps
import MetricQuery.Proofs.Session.Uniqueness
import MetricQuery.Proofs.Session.Rerun
import MetricQuery.Proofs.Console
import MetricQuery.Proofs.Catalog
import MetricQuery.Proofs.Catalog.Json
import MetricQuery.Proofs.Text.Excerpt
import MetricQuery.Proofs.Console.Saving
import MetricQuery.Proofs.Selection.FunctionName
import MetricQuery.Proofs.Token.Spacing
import MetricQuery.Proofs.Token.Pieces
import MetricQuery.Proofs.Engine.Order
import MetricQuery.Proofs.Session.Sentinel
import MetricQuery.Proofs.Token.Relayout
import MetricQuery.Proofs.Query.Elements
import MetricQuery.Proofs.Saved.Numbers
import MetricQuery.Proofs.Pages
import MetricQuery.Proofs.Console.Table
import MetricQuery.Proofs.Accumulator.Finite
import MetricQuery.Proofs.Query.Qualifiers
