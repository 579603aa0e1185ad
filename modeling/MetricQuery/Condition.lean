import MetricQuery.Cell
import MetricQuery.Query
import MetricQuery.Text.Lowercase
import MetricQuery.Text.Pattern

/-!
# Conditions on rows

A condition reads one cell of a row in the way its comparison asks for. A field
that the row lacks is read as the empty text.

Equality holds between texts that differ in letter case only, and between
finite numbers that are equal, however they are written. The orderings compare
the numbers that the two sides count as; a side that is no number makes all of
them false. The last comparison matches the text of the cell with a pattern,
without regard to letter case.
-/

namespace MetricQuery

/-- Whether a text matches a pattern, without regard to letter case. -/
def likeText (text pattern : List Char) : Bool :=
  Text.matchesPattern (Text.lower pattern) (Text.lower text)

/-- Whether a cell equals a text: as texts without regard to letter case, or as
finite numbers. -/
def Cell.equals (cell : Cell) (value : String) : Bool :=
  if Text.lower cell.display = Text.lower value.toList then true
  else
    match cell.finite?, textFinite? value.toList with
    | some left, some right => left == right
    | _, _ => false

namespace Condition

/-- The cell that a condition reads in a row. -/
def cellOf (condition : Condition) (row : Row) : Cell :=
  (row.get? condition.field).getD (.text "")

/-- Whether a cell satisfies the comparison of a condition. -/
def holdsFor (condition : Condition) (cell : Cell) : Bool :=
  match condition.comparison with
  | .equal => cell.equals condition.value
  | .greater => decide (textNumber condition.value.toList < cell.toNumber)
  | .less => decide (cell.toNumber < textNumber condition.value.toList)
  | .atLeast => decide (textNumber condition.value.toList ≤ cell.toNumber)
  | .atMost => decide (cell.toNumber ≤ textNumber condition.value.toList)
  | .like => likeText cell.display condition.value.toList

/-- Whether a row satisfies a condition. -/
def holds (condition : Condition) (row : Row) : Bool := condition.holdsFor (condition.cellOf row)

end Condition

/-- Whether a row satisfies all of some conditions. -/
def satisfies (conditions : List Condition) (row : Row) : Bool :=
  conditions.all fun condition => condition.holds row

/-- The rows that satisfy all of some conditions, in their order. -/
def keepRows (conditions : List Condition) (rows : List Row) : List Row :=
  rows.filter (satisfies conditions)

end MetricQuery
