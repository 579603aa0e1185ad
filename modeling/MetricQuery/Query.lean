import MetricQuery.Text.Ascii
import MetricQuery.Token

/-!
# Queries

A query names the fields and aggregations it selects, the table it reads, the
conditions that rows must satisfy and the fields by which rows are grouped.
Every part may be missing: a query without any of them asks for nothing.

An aggregation function is one of five known ones or any other name. Names are
compared without regard to the case of ASCII letters, kept in small letters and
shown in capitals.
-/

namespace MetricQuery

/-- A function that combines the values of a group. -/
inductive AggregateFunction where
  | sum
  | count
  | average
  | minimum
  | maximum
  /-- A function that is not known; it keeps the first value of a group. -/
  | other (name : String)
  deriving DecidableEq, Repr

namespace AggregateFunction

/-- The function with a name, in any case of ASCII letters. -/
def ofName (name : String) : AggregateFunction :=
  let small := Text.smallAscii name
  if small = "sum" then sum
  else if small = "count" then count
  else if small = "avg" then average
  else if small = "min" then minimum
  else if small = "max" then maximum
  else other small

/-- The name of a function in small letters. -/
def name : AggregateFunction → String
  | sum => "sum"
  | count => "count"
  | average => "avg"
  | minimum => "min"
  | maximum => "max"
  | other name => name

/-- The name of a function as it is shown, in capitals. -/
def shown (function : AggregateFunction) : String := Text.capitalAscii function.name

end AggregateFunction

/-- An aggregation of one field, and the column of the result it goes to. -/
structure Aggregation where
  /-- The function that combines the values. -/
  function : AggregateFunction
  /-- The field whose values are combined. -/
  field : String
  /-- The column of the result. -/
  column : String
  deriving DecidableEq, Repr

/-- A comparison of a cell with a text. -/
inductive Comparison where
  | equal
  | greater
  | less
  | atLeast
  | atMost
  | like
  deriving DecidableEq, Repr

/-- The sign of a comparison. -/
def Comparison.symbol : Comparison → String
  | equal => "="
  | greater => ">"
  | less => "<"
  | atLeast => ">="
  | atMost => "<="
  | like => "LIKE"

/-- A condition on the rows of a table. -/
structure Condition where
  /-- The field whose cell is compared. -/
  field : String
  /-- How the cell is compared. -/
  comparison : Comparison
  /-- What the cell is compared with. -/
  value : String
  deriving DecidableEq, Repr

/-- A query, with a default for every part that is missing. -/
structure Query where
  /-- The fields that are selected as they are. -/
  fields : List String := []
  /-- The aggregations that are selected. -/
  aggregations : List Aggregation := []
  /-- The table that is read; empty if none is named. -/
  table : String := ""
  /-- The conditions, all of which a row must satisfy. -/
  conditions : List Condition := []
  /-- The fields by which rows are grouped, in order. -/
  grouping : List String := []
  deriving DecidableEq, Repr

namespace Query

/-- Whether a query asks for nothing at all. -/
def isEmpty (query : Query) : Bool :=
  query.fields.isEmpty && query.aggregations.isEmpty && query.table.isEmpty &&
    query.conditions.isEmpty && query.grouping.isEmpty

/-- The query of two texts one after the other: lists are joined, and the first
table that is named counts. -/
def merge (first second : Query) : Query where
  fields := first.fields ++ second.fields
  aggregations := first.aggregations ++ second.aggregations
  table := if first.table.isEmpty then second.table else first.table
  conditions := first.conditions ++ second.conditions
  grouping := first.grouping ++ second.grouping

/-- A query that asks for nothing adds nothing in front. -/
@[simp] theorem merge_empty_left (query : Query) : merge {} query = query := by
  simp [merge]

/-- A query that asks for nothing adds nothing behind. -/
@[simp] theorem merge_empty_right (query : Query) : merge query {} = query := by
  cases query with
  | mk fields aggregations table conditions grouping =>
      by_cases unnamed : table = ""
      · simp [merge, unnamed]
      · simp [merge, unnamed]

/-- Merging does not depend on how texts are bracketed. -/
theorem merge_assoc (first second third : Query) :
    merge (merge first second) third = merge first (merge second third) := by
  by_cases unnamed : first.table.isEmpty = true
  · simp [merge, unnamed, List.append_assoc]
  · simp [merge, unnamed, List.append_assoc]

end Query

end MetricQuery
