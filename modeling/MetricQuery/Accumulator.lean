import MetricQuery.Cell
import MetricQuery.Query

/-!
# Running aggregations

An aggregation over a group starts with the group's first cell and takes one
further cell at a time. Its result can be asked for at any time.

Sums, averages, minima and maxima take the cells that are finite numbers and
pass over the rest; without any such cell their result is empty. A minimum or a
maximum moves on to a number equal to it, which shows for zeros of either sign.
A count adds one for every cell, whatever it holds; what the first cell counts
for is a policy. A function that is not known keeps the first cell.
-/

namespace MetricQuery

/-- What the first cell of a group counts for. -/
inductive CountSeed where
  /-- It counts as one. -/
  | one
  /-- It counts as the number that it holds. -/
  | fieldValue
  deriving DecidableEq, Repr

/-- The number zero. -/
def zero : Float := Decimal.assemble false 0

/-- The number one. -/
def one : Float := Decimal.ofNat 1

/-- The smaller of two numbers; of equal ones, such as zeros of either sign, the second. -/
def smaller (x y : Float) : Float := if x < y then x else y

/-- The larger of two numbers; of equal ones, such as zeros of either sign, the second. -/
def larger (x y : Float) : Float := if y < x then x else y

/-- The state of one aggregation over one group. -/
inductive Accumulator where
  /-- The sum of the finite cells so far, if there was one. -/
  | sum (total : Option Float)
  /-- The count so far. -/
  | count (total : Float)
  /-- The sum and the number of the finite cells so far. -/
  | average (total : Float) (cells : Nat)
  /-- The smallest finite cell so far, if there was one. -/
  | minimum (least : Option Float)
  /-- The largest finite cell so far, if there was one. -/
  | maximum (most : Option Float)
  /-- The first cell. -/
  | first (cell : Cell)
  deriving DecidableEq

namespace Accumulator

/-- Take one more cell. -/
def apply (state : Accumulator) (cell : Cell) : Accumulator :=
  match state, cell.finite? with
  | sum total, some x => sum (some (total.getD zero + x))
  | count total, _ => count (total + one)
  | average total cells, some x => average (total + x) (cells + 1)
  | minimum least, some x => minimum (some (least.elim x (smaller · x)))
  | maximum most, some x => maximum (some (most.elim x (larger · x)))
  | other, _ => other

/-- A number as a cell, and no content for none. -/
def cellOf : Option Float → Cell
  | some x => .number x
  | none => .null

/-- The result over the cells so far. -/
def result : Accumulator → Cell
  | sum total => cellOf total
  | count total => Cell.ofFinite total
  | average total cells => if cells = 0 then .null else .number (total / Decimal.ofNat cells)
  | minimum least => cellOf least
  | maximum most => cellOf most
  | first cell => cell

/-- Start an aggregation with the first cell of a group. -/
def start (function : AggregateFunction) (cell : Cell) (seed : CountSeed) : Accumulator :=
  match function with
  | .sum => (sum none).apply cell
  | .count =>
      match seed with
      | .one => count one
      | .fieldValue => count cell.toNumber
  | .average => (average zero 0).apply cell
  | .minimum => (minimum none).apply cell
  | .maximum => (maximum none).apply cell
  | .other _ => first cell

/-- The results after the first cell and after each further one. -/
def results (state : Accumulator) : List Cell → List Cell
  | [] => [state.result]
  | cell :: later => state.result :: (state.apply cell).results later

end Accumulator

end MetricQuery
