import MetricQuery.Engine

/-!
# Sets of tables

A dataset holds the rows of some tables by name. Names are put into lower case,
both when rows are stored and when they are looked up, so a table is found in
any letter case. Rows stored under the name of an earlier table replace its
rows.
-/

namespace MetricQuery

/-- The rows of some tables, by their names in lower case. -/
structure Dataset where
  /-- The rows by lower-case name. -/
  tables : SortedMap (List Row)
  deriving DecidableEq

namespace Dataset

/-- The dataset without tables. -/
def empty : Dataset := ⟨.empty⟩

/-- Store the rows of a table. -/
def insert (dataset : Dataset) (name : String) (rows : List Row) : Dataset :=
  ⟨dataset.tables.insert (Text.lowered name) rows⟩

/-- The rows of the table with a name. -/
def rows? (dataset : Dataset) (name : String) : Option (List Row) :=
  dataset.tables.get? (Text.lowered name)

/-- The dataset of some tables, where of equal names the last counts. -/
def ofList (tables : List (String × List Row)) : Dataset :=
  tables.foldl (fun dataset table => dataset.insert table.1 table.2) empty

end Dataset

namespace Engine

/-- Run a query over the table that it names; there are no rows in a table that
does not exist. -/
def runOn (engine : Engine) (query : Query) (dataset : Dataset) : List Row :=
  match dataset.rows? query.table with
  | some rows => engine.run query rows
  | none => []

/-- What is noticed while a query runs over the table that it names. -/
def journalOn (engine : Engine) (query : Query) (dataset : Dataset) : List Event :=
  match dataset.rows? query.table with
  | some rows => engine.journal query rows
  | none =>
      [{ level := .warn, message := "unknown table", details := [("table", query.table)] }]

end Engine

end MetricQuery
