import MetricQuery.Json.Reader
import MetricQuery.Json.Writer
import MetricQuery.Selection

/-!
# Metrics and dimensions in JSON

Metrics and dimensions are objects of a field, a label and a type. A dimension
without a type leaves that member out, and a dimension is read with the type
missing or null.
-/

namespace MetricQuery

namespace FieldType

/-- The name of a field type. -/
def name : FieldType → String
  | currency => "currency"
  | number => "number"
  | percentage => "percentage"
  | string => "string"

/-- The field types by their names. -/
def variants : List (String × FieldType) :=
  [currency, number, percentage, string].map fun type => (type.name, type)

/-- A field type in JSON. -/
def toJson (type : FieldType) : List Json.Lexeme := Json.string type.name

/-- Read a field type. -/
def reader : Json.Reader FieldType := Json.readVariant variants

end FieldType

namespace Metric

/-- A metric in JSON. -/
def toJson (metric : Metric) : List Json.Lexeme :=
  Json.object [
    Json.member "value" (Json.string metric.value),
    Json.member "label" (Json.string metric.label),
    Json.member "type" metric.type.toJson]

/-- The parts of a metric that were read so far. -/
structure Draft where
  /-- The field. -/
  value : Option String := none
  /-- The label. -/
  label : Option String := none
  /-- The type. -/
  type : Option FieldType := none

/-- The fields of a metric. -/
def slots : List (Json.Slot Draft) := [
  { name := "value", required := true, isSet := (·.value.isSome)
    read := fun draft depth words => do
      let (content, rest) ← Json.readText depth words
      .ok ({ draft with value := some content }, rest) },
  { name := "label", required := true, isSet := (·.label.isSome)
    read := fun draft depth words => do
      let (content, rest) ← Json.readText depth words
      .ok ({ draft with label := some content }, rest) },
  { name := "type", required := true, isSet := (·.type.isSome)
    read := fun draft depth words => do
      let (content, rest) ← FieldType.reader depth words
      .ok ({ draft with type := some content }, rest) }]

/-- The metric of a draft. -/
def Draft.finish (draft : Draft) : Except Json.Fault Metric := do
  let value ← Json.need "value" draft.value
  let label ← Json.need "label" draft.label
  let type ← Json.need "type" draft.type
  .ok ⟨value, label, type⟩

/-- Read a metric. -/
def reader : Json.Reader Metric := Json.readRecord "struct Metric" slots {} Draft.finish

end Metric

namespace Dimension

/-- A dimension in JSON. -/
def toJson (dimension : Dimension) : List Json.Lexeme :=
  Json.object <|
    [Json.member "value" (Json.string dimension.value),
      Json.member "label" (Json.string dimension.label)] ++
    match dimension.type with
    | some type => [Json.member "type" type.toJson]
    | none => []

/-- The parts of a dimension that were read so far. -/
structure Draft where
  /-- The field. -/
  value : Option String := none
  /-- The label. -/
  label : Option String := none
  /-- The type, which may be there and null. -/
  type : Option (Option FieldType) := none

/-- The fields of a dimension. -/
def slots : List (Json.Slot Draft) := [
  { name := "value", required := true, isSet := (·.value.isSome)
    read := fun draft depth words => do
      let (content, rest) ← Json.readText depth words
      .ok ({ draft with value := some content }, rest) },
  { name := "label", required := true, isSet := (·.label.isSome)
    read := fun draft depth words => do
      let (content, rest) ← Json.readText depth words
      .ok ({ draft with label := some content }, rest) },
  { name := "type", required := false, isSet := (·.type.isSome)
    read := fun draft depth words => do
      let (content, rest) ← Json.readOptional FieldType.reader depth words
      .ok ({ draft with type := some content }, rest) }]

/-- The dimension of a draft. -/
def Draft.finish (draft : Draft) : Except Json.Fault Dimension := do
  let value ← Json.need "value" draft.value
  let label ← Json.need "label" draft.label
  .ok ⟨value, label, draft.type.getD none⟩

/-- Read a dimension. -/
def reader : Json.Reader Dimension := Json.readRecord "struct Dimension" slots {} Draft.finish

end Dimension

end MetricQuery
