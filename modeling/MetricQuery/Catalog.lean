import MetricQuery.Dataset
import MetricQuery.Selection

/-!
# Catalogs

A catalog lists the tables that a user can choose from, each with its metrics,
its dimensions and its rows. It also lists the aggregation functions on offer,
and it says which field names were replaced and how counts start.

A table is chosen by its name without regard to the case of ASCII letters, and
the first one with that name counts. The rows of all tables form a dataset,
where names are compared in lower case and the last table of a name counts.
-/

namespace MetricQuery

/-- A table on offer. -/
structure Table where
  /-- The name by which it is chosen. -/
  name : String
  /-- How it is called. -/
  label : String
  /-- The fields that can be aggregated. -/
  metrics : List Metric := []
  /-- The fields that rows can be grouped by. -/
  dimensions : List Dimension := []
  /-- Its rows. -/
  rows : List Row := []
  deriving DecidableEq

/-- How a catalog wants its queries to be run. -/
structure EngineSettings where
  /-- What the first cell of a group counts for. -/
  seed : CountSeed := .one
  deriving DecidableEq, Repr

/-- The tables on offer and how queries over them are run. -/
structure Catalog where
  /-- The tables on offer. -/
  tables : List Table
  /-- The aggregation functions on offer. -/
  functions : List AggregateFunction
  /-- The field names that were replaced. -/
  aliases : FieldAliases
  /-- How queries are run. -/
  settings : EngineSettings
  deriving DecidableEq

/-- The functions on offer where a catalog does not list any. -/
def usualFunctions : List AggregateFunction := [.sum, .average, .count, .minimum, .maximum]

namespace Catalog

/-- The first table with a name, without regard to the case of ASCII letters. -/
def table? (catalog : Catalog) (name : String) : Option Table :=
  catalog.tables.find? fun table => Text.sameName table.name name

/-- The names of the tables in order. -/
def tableNames (catalog : Catalog) : List String := catalog.tables.map Table.name

/-- The rows of all tables. -/
def dataset (catalog : Catalog) : Dataset :=
  .ofList (catalog.tables.map fun table => (table.name, table.rows))

/-- The engine that runs queries over the tables. -/
def engine (catalog : Catalog) : Engine := ⟨catalog.aliases, catalog.settings.seed⟩

end Catalog

namespace Table

/-- The first metric of a table with a name, without regard to the case of ASCII letters. -/
def metric? (table : Table) (name : String) : Option Metric :=
  table.metrics.find? fun metric => Text.sameName metric.value name

/-- The first dimension of a table with a name, without regard to the case of ASCII letters. -/
def dimension? (table : Table) (name : String) : Option Dimension :=
  table.dimensions.find? fun dimension => Text.sameName dimension.value name

end Table

end MetricQuery
