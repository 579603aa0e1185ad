import MetricQuery.Json.Reader
import MetricQuery.Json.Writer
import MetricQuery.Accumulator

/-!
# Parts of queries in JSON

A function is written by its name in capitals, and any string is read as a
function. A comparison is written by its sign, and a condition as an object of
its three parts.
-/

namespace MetricQuery

namespace AggregateFunction

/-- A function in JSON. -/
def toJson (function : AggregateFunction) : List Json.Lexeme := Json.string function.shown

/-- Read a function. -/
def reader : Json.Reader AggregateFunction := fun depth words => do
  let (name, rest) ← Json.readText depth words
  .ok (ofName name, rest)

end AggregateFunction

namespace Comparison

/-- The comparisons by their signs. -/
def variants : List (String × Comparison) :=
  [equal, greater, less, atLeast, atMost, like].map fun comparison =>
    (comparison.symbol, comparison)

/-- A comparison in JSON. -/
def toJson (comparison : Comparison) : List Json.Lexeme := Json.string comparison.symbol

/-- Read a comparison. -/
def reader : Json.Reader Comparison := Json.readVariant variants

end Comparison

namespace Condition

/-- A condition in JSON. -/
def toJson (condition : Condition) : List Json.Lexeme :=
  Json.object [
    Json.member "field" (Json.string condition.field),
    Json.member "operator" condition.comparison.toJson,
    Json.member "value" (Json.string condition.value)]

/-- The parts of a condition that were read so far. -/
structure Draft where
  /-- The field. -/
  field : Option String := none
  /-- The comparison. -/
  comparison : Option Comparison := none
  /-- The value. -/
  value : Option String := none

/-- The fields of a condition. -/
def slots : List (Json.Slot Draft) := [
  { name := "field", required := true, isSet := (·.field.isSome)
    read := fun draft depth words => do
      let (content, rest) ← Json.readText depth words
      .ok ({ draft with field := some content }, rest) },
  { name := "operator", required := true, isSet := (·.comparison.isSome)
    read := fun draft depth words => do
      let (content, rest) ← Comparison.reader depth words
      .ok ({ draft with comparison := some content }, rest) },
  { name := "value", required := true, isSet := (·.value.isSome)
    read := fun draft depth words => do
      let (content, rest) ← Json.readText depth words
      .ok ({ draft with value := some content }, rest) }]

/-- The condition of a draft. -/
def Draft.finish (draft : Draft) : Except Json.Fault Condition := do
  let field ← Json.need "field" draft.field
  let comparison ← Json.need "operator" draft.comparison
  let value ← Json.need "value" draft.value
  .ok ⟨field, comparison, value⟩

/-- Read a condition. -/
def reader : Json.Reader Condition :=
  Json.readRecord "struct FilterCondition" slots {} Draft.finish

end Condition

namespace CountSeed

/-- The counting policies by their names. -/
def variants : List (String × CountSeed) := [("one", one), ("field_value", fieldValue)]

/-- The name of a counting policy. -/
def name : CountSeed → String
  | one => "one"
  | fieldValue => "field_value"

/-- A counting policy in JSON. -/
def toJson (seed : CountSeed) : List Json.Lexeme := Json.string seed.name

/-- Read a counting policy. -/
def reader : Json.Reader CountSeed := Json.readVariant variants

end CountSeed

end MetricQuery
