import MetricQuery.Saved
import MetricQuery.Selection.Json

/-!
# Saved queries in JSON

A saved query is an object, and a collection the list of its queries. Reading a
collection adds the queries of the list one after the other, so a query text
that occurs again is left out and a number that occurs again is replaced.
-/

namespace MetricQuery

namespace SavedQuery

/-- A saved query in JSON. -/
def toJson (saved : SavedQuery) : List Json.Lexeme :=
  Json.object [
    Json.member "id" (Json.integer saved.id),
    Json.member "query" (Json.string saved.query),
    Json.member "metrics" (Json.list (saved.metrics.map Metric.toJson)),
    Json.member "dimensions" (Json.list (saved.dimensions.map Dimension.toJson)),
    Json.member "timestamp" (Json.string saved.timestamp),
    Json.member "tableName" (Json.string saved.table),
    Json.member "aggregation" (Json.string saved.function)]

/-- The parts of a saved query that were read so far. -/
structure Draft where
  /-- The number. -/
  id : Option Int := none
  /-- The text. -/
  query : Option String := none
  /-- The metrics. -/
  metrics : Option (List Metric) := none
  /-- The dimensions. -/
  dimensions : Option (List Dimension) := none
  /-- When it was saved. -/
  timestamp : Option String := none
  /-- The table. -/
  table : Option String := none
  /-- The name of the function. -/
  function : Option String := none

/-- The fields of a saved query. -/
def slots : List (Json.Slot Draft) := [
  { name := "id", required := true, isSet := (·.id.isSome)
    read := fun draft depth words => do
      let (content, rest) ← Json.readInteger depth words
      .ok ({ draft with id := some content }, rest) },
  { name := "query", required := true, isSet := (·.query.isSome)
    read := fun draft depth words => do
      let (content, rest) ← Json.readText depth words
      .ok ({ draft with query := some content }, rest) },
  { name := "metrics", required := true, isSet := (·.metrics.isSome)
    read := fun draft depth words => do
      let (content, rest) ← Json.readList Metric.reader depth words
      .ok ({ draft with metrics := some content }, rest) },
  { name := "dimensions", required := true, isSet := (·.dimensions.isSome)
    read := fun draft depth words => do
      let (content, rest) ← Json.readList Dimension.reader depth words
      .ok ({ draft with dimensions := some content }, rest) },
  { name := "timestamp", required := true, isSet := (·.timestamp.isSome)
    read := fun draft depth words => do
      let (content, rest) ← Json.readText depth words
      .ok ({ draft with timestamp := some content }, rest) },
  { name := "tableName", required := true, isSet := (·.table.isSome)
    read := fun draft depth words => do
      let (content, rest) ← Json.readText depth words
      .ok ({ draft with table := some content }, rest) },
  { name := "aggregation", required := true, isSet := (·.function.isSome)
    read := fun draft depth words => do
      let (content, rest) ← Json.readText depth words
      .ok ({ draft with function := some content }, rest) }]

/-- The saved query of a draft. -/
def Draft.finish (draft : Draft) : Except Json.Fault SavedQuery := do
  let id ← Json.need "id" draft.id
  let query ← Json.need "query" draft.query
  let metrics ← Json.need "metrics" draft.metrics
  let dimensions ← Json.need "dimensions" draft.dimensions
  let timestamp ← Json.need "timestamp" draft.timestamp
  let table ← Json.need "tableName" draft.table
  let function ← Json.need "aggregation" draft.function
  .ok ⟨id, query, metrics, dimensions, timestamp, table, function⟩

/-- Read a saved query. -/
def reader : Json.Reader SavedQuery :=
  Json.readRecord "struct SavedQuery" slots {} Draft.finish

end SavedQuery

namespace SavedQueries

/-- Why a text was refused as a collection. -/
inductive ImportFault where
  /-- The text is no JSON of a list of saved queries. -/
  | notSaved (fault : Json.Fault)
  /-- A number was taken and there was none left to give. -/
  | exhausted
  deriving DecidableEq

/-- The text of a collection. -/
def toText (saved : SavedQueries) : String :=
  Json.render (Json.list (saved.records.map SavedQuery.toJson))

/-- The collection that a text holds. -/
def ofText (text : String) : Except ImportFault SavedQueries :=
  match Json.decode (Json.readList SavedQuery.reader) text with
  | .error fault => .error (.notSaved fault)
  | .ok records =>
      match SavedQueries.saveAll {} records with
      | some saved => .ok saved
      | none => .error .exhausted

end SavedQueries

end MetricQuery
