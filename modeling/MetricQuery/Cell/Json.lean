import MetricQuery.Json.Reader
import MetricQuery.Json.Writer

/-!
# Cells in JSON

A cell is written as a number, a string or null. Any number is read as a
floating-point number. A row is an object; of several members with one key the
last counts, and any other value in the place of a cell is refused once its end
is reached.
-/

namespace MetricQuery

namespace Cell

/-- A cell in JSON. -/
def toJson : Cell → List Json.Lexeme
  | number value => Json.float value
  | text value => Json.string value
  | null => [.null]

/-- The floating-point number for a number in JSON. -/
def ofNumber : Json.Number → Cell
  | .natural value => number (Decimal.ofNat value)
  | .negative value => number (-(Decimal.ofNat value))
  | .decimal value => number value

/-- Read a cell. -/
def reader : Json.Reader Cell := fun depth words =>
  match words with
  | .null :: later => .ok (null, later)
  | .text value :: later => .ok (text (String.ofList value), later)
  | .number value :: later => .ok (ofNumber value, later)
  | _ => do
      let _ ← Json.readAny depth words
      .error .noCell

end Cell

namespace Row

/-- A row in JSON. -/
def toJson (row : Row) : List Json.Lexeme := Json.mapOf Cell.toJson row

/-- Read a row. -/
def reader : Json.Reader Row := Json.readMap Cell.reader

end Row

end MetricQuery
