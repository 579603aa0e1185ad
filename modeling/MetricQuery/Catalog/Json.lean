import MetricQuery.Catalog.Sample
import MetricQuery.Cell.Json
import MetricQuery.Query.Json
import MetricQuery.Selection.Json

/-!
# Catalogs in JSON

A catalog is an object. Only its tables must be there, and of a table only its
name and its label; the other members are filled in where they are missing.
-/

namespace MetricQuery

namespace Table

/-- A table in JSON. -/
def toJson (table : Table) : List Json.Lexeme :=
  Json.object [
    Json.member "name" (Json.string table.name),
    Json.member "label" (Json.string table.label),
    Json.member "metrics" (Json.list (table.metrics.map Metric.toJson)),
    Json.member "dimensions" (Json.list (table.dimensions.map Dimension.toJson)),
    Json.member "rows" (Json.list (table.rows.map Row.toJson))]

/-- The parts of a table that were read so far. -/
structure Draft where
  /-- The name. -/
  name : Option String := none
  /-- The label. -/
  label : Option String := none
  /-- The metrics. -/
  metrics : Option (List Metric) := none
  /-- The dimensions. -/
  dimensions : Option (List Dimension) := none
  /-- The rows. -/
  rows : Option (List Row) := none

/-- The fields of a table. -/
def slots : List (Json.Slot Draft) := [
  { name := "name", required := true, isSet := (·.name.isSome)
    read := fun draft depth words => do
      let (content, rest) ← Json.readText depth words
      .ok ({ draft with name := some content }, rest) },
  { name := "label", required := true, isSet := (·.label.isSome)
    read := fun draft depth words => do
      let (content, rest) ← Json.readText depth words
      .ok ({ draft with label := some content }, rest) },
  { name := "metrics", required := false, isSet := (·.metrics.isSome)
    read := fun draft depth words => do
      let (content, rest) ← Json.readList Metric.reader depth words
      .ok ({ draft with metrics := some content }, rest) },
  { name := "dimensions", required := false, isSet := (·.dimensions.isSome)
    read := fun draft depth words => do
      let (content, rest) ← Json.readList Dimension.reader depth words
      .ok ({ draft with dimensions := some content }, rest) },
  { name := "rows", required := false, isSet := (·.rows.isSome)
    read := fun draft depth words => do
      let (content, rest) ← Json.readList Row.reader depth words
      .ok ({ draft with rows := some content }, rest) }]

/-- The table of a draft. -/
def Draft.finish (draft : Draft) : Except Json.Fault Table := do
  let name ← Json.need "name" draft.name
  let label ← Json.need "label" draft.label
  .ok ⟨name, label, draft.metrics.getD [], draft.dimensions.getD [], draft.rows.getD []⟩

/-- Read a table. -/
def reader : Json.Reader Table :=
  Json.readRecord "struct TableDefinition" slots {} Draft.finish

end Table

namespace EngineSettings

/-- The settings in JSON. -/
def toJson (settings : EngineSettings) : List Json.Lexeme :=
  Json.object [Json.member "count_seed" settings.seed.toJson]

/-- The parts of the settings that were read so far. -/
structure Draft where
  /-- The counting policy. -/
  seed : Option CountSeed := none

/-- The fields of the settings. -/
def slots : List (Json.Slot Draft) := [
  { name := "count_seed", required := false, isSet := (·.seed.isSome)
    read := fun _ depth words => do
      let (content, rest) ← CountSeed.reader depth words
      .ok (⟨some content⟩, rest) }]

/-- The settings of a draft. -/
def Draft.finish (draft : Draft) : Except Json.Fault EngineSettings :=
  .ok ⟨draft.seed.getD .one⟩

/-- Read the settings. -/
def reader : Json.Reader EngineSettings :=
  Json.readRecord "struct ExecutorConfig" slots {} Draft.finish

end EngineSettings

namespace Catalog

/-- A catalog in JSON. -/
def toJson (catalog : Catalog) : List Json.Lexeme :=
  Json.object [
    Json.member "tables" (Json.list (catalog.tables.map Table.toJson)),
    Json.member "aggregations" (Json.list (catalog.functions.map AggregateFunction.toJson)),
    Json.member "field_aliases" (Json.mapOf Json.string catalog.aliases),
    Json.member "executor" catalog.settings.toJson]

/-- The parts of a catalog that were read so far. -/
structure Draft where
  /-- The tables. -/
  tables : Option (List Table) := none
  /-- The functions on offer. -/
  functions : Option (List AggregateFunction) := none
  /-- The field names that were replaced. -/
  aliases : Option FieldAliases := none
  /-- The settings. -/
  settings : Option EngineSettings := none

/-- The fields of a catalog. -/
def slots : List (Json.Slot Draft) := [
  { name := "tables", required := true, isSet := (·.tables.isSome)
    read := fun draft depth words => do
      let (content, rest) ← Json.readList Table.reader depth words
      .ok ({ draft with tables := some content }, rest) },
  { name := "aggregations", required := false, isSet := (·.functions.isSome)
    read := fun draft depth words => do
      let (content, rest) ← Json.readList AggregateFunction.reader depth words
      .ok ({ draft with functions := some content }, rest) },
  { name := "field_aliases", required := false, isSet := (·.aliases.isSome)
    read := fun draft depth words => do
      let (content, rest) ← Json.readMap Json.readText depth words
      .ok ({ draft with aliases := some content }, rest) },
  { name := "executor", required := false, isSet := (·.settings.isSome)
    read := fun draft depth words => do
      let (content, rest) ← EngineSettings.reader depth words
      .ok ({ draft with settings := some content }, rest) }]

/-- The catalog of a draft. -/
def Draft.finish (draft : Draft) : Except Json.Fault Catalog := do
  let tables ← Json.need "tables" draft.tables
  .ok ⟨tables, draft.functions.getD usualFunctions, draft.aliases.getD .empty,
    draft.settings.getD {}⟩

/-- Read a catalog. -/
def reader : Json.Reader Catalog := Json.readRecord "struct Catalog" slots {} Draft.finish

end Catalog

end MetricQuery
