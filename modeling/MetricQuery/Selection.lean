import MetricQuery.Query

/-!
# Selections

A user builds a query by choosing: a table, an aggregation function, the
metrics to aggregate, the dimensions to group by, and filters. Metrics and
dimensions are identified by the field they stand for; their labels and types
are for display.
-/

namespace MetricQuery

/-- How the values of a field are shown. -/
inductive FieldType where
  | currency
  | number
  | percentage
  | string
  deriving DecidableEq, Repr

/-- A field that can be aggregated. -/
structure Metric where
  /-- The field. -/
  value : String
  /-- How the metric is called. -/
  label : String
  /-- How its values are shown. -/
  type : FieldType
  deriving DecidableEq, Repr

/-- A field that rows can be grouped by. -/
structure Dimension where
  /-- The field. -/
  value : String
  /-- How the dimension is called. -/
  label : String
  /-- How its values are shown, if that is known. -/
  type : Option FieldType := none
  deriving DecidableEq, Repr

/-- What a query is generated from. -/
structure Selection where
  /-- The table to read. -/
  table : String
  /-- The function applied to every metric. -/
  function : AggregateFunction
  /-- The metrics to aggregate. -/
  metrics : List Metric := []
  /-- The dimensions to group by. -/
  dimensions : List Dimension := []
  /-- The conditions on rows. -/
  filters : List Condition := []
  deriving DecidableEq, Repr

namespace Selection

/-- Whether neither a metric nor a dimension is selected. -/
def isBare (selection : Selection) : Bool :=
  selection.metrics.isEmpty && selection.dimensions.isEmpty

end Selection

end MetricQuery
