import MetricQuery.Accumulator

/-!
# Aggregations as values of whole groups

An aggregation is run one cell at a time, but what it computes is a value of all
cells of a group in their order. This value is given here without any running:
sums and averages from the finite numbers among the cells added from the left, a
minimum or maximum by folding these numbers from the left, a count from the
number of cells, and the first cell for a function that is not known.

The main statement is that an aggregation that was started with the first cell
and took the others in order has this value as its result.
-/

namespace MetricQuery

/-- The finite numbers among some cells. -/
def finiteCells (cells : List Cell) : List Float := cells.filterMap Cell.finite?

/-- The sum of some numbers, added to zero from the left. -/
def total (numbers : List Float) : Float := numbers.foldl (· + ·) zero

/-- Some numbers folded from the left by an operation, without a start value. -/
def foldLeft? (operation : Float → Float → Float) : List Float → Option Float
  | [] => none
  | first :: later => some (later.foldl operation first)

/-- What the first cell of a group counts for under a policy. -/
def CountSeed.firstCount (seed : CountSeed) (cell : Cell) : Float :=
  match seed with
  | .one => MetricQuery.one
  | .fieldValue => cell.toNumber

/-- The count over some cells: what the first one counts for, and one added for
each of the others. -/
def countOf (seed : CountSeed) : List Cell → Float
  | [] => zero
  | first :: later => later.foldl (fun count _ => count + one) (seed.firstCount first)

/-- The value of a function over the cells of a group. -/
def AggregateFunction.over (function : AggregateFunction) (seed : CountSeed)
    (cells : List Cell) : Cell :=
  let numbers := finiteCells cells
  match function with
  | .sum => if numbers = [] then .null else .number (total numbers)
  | .count => Cell.ofFinite (countOf seed cells)
  | .average =>
      if numbers = [] then .null else .number (total numbers / Decimal.ofNat numbers.length)
  | .minimum => Accumulator.cellOf (foldLeft? smaller numbers)
  | .maximum => Accumulator.cellOf (foldLeft? larger numbers)
  | .other _ => cells.head?.getD .null

/-- One more number at the end is folded last. -/
theorem foldLeft?_append (operation : Float → Float → Float) (numbers : List Float) (x : Float) :
    foldLeft? operation (numbers ++ [x]) =
      some ((foldLeft? operation numbers).elim x (operation · x)) := by
  cases numbers with
  | nil => rfl
  | cons first later => simp [foldLeft?]

/-- One more number at the end is added last. -/
theorem total_append (numbers : List Float) (x : Float) :
    total (numbers ++ [x]) = total numbers + x := by
  simp [total]

/-- A finite number at the end is the last one. -/
theorem finiteCells_append {cell : Cell} {x : Float} (finite : cell.finite? = some x)
    (cells : List Cell) : finiteCells (cells ++ [cell]) = finiteCells cells ++ [x] := by
  simp [finiteCells, finite]

/-- Any other cell is passed over. -/
theorem finiteCells_append_other {cell : Cell} (other : cell.finite? = none) (cells : List Cell) :
    finiteCells (cells ++ [cell]) = finiteCells cells := by
  simp [finiteCells, other]

/-- One more cell behind a first one counts for one. -/
theorem countOf_append (seed : CountSeed) {cells : List Cell} (some : cells ≠ []) (cell : Cell) :
    countOf seed (cells ++ [cell]) = countOf seed cells + one := by
  cases cells with
  | nil => exact absurd rfl some
  | cons first later => simp [countOf]

namespace Accumulator

/-- The state of an aggregation that has taken some cells. -/
def after (function : AggregateFunction) (seed : CountSeed) (cells : List Cell) : Accumulator :=
  let numbers := finiteCells cells
  match function with
  | .sum => sum (if numbers = [] then none else some (total numbers))
  | .count => count (countOf seed cells)
  | .average => average (total numbers) numbers.length
  | .minimum => minimum (foldLeft? smaller numbers)
  | .maximum => maximum (foldLeft? larger numbers)
  | .other _ => first (cells.head?.getD .null)

/-- An aggregation starts in the state after its first cell. -/
theorem start_eq_after (function : AggregateFunction) (seed : CountSeed) (cell : Cell) :
    start function cell seed = after function seed [cell] := by
  cases function with
  | count => cases seed <;> rfl
  | other => rfl
  | _ =>
    cases finite : cell.finite? <;>
      simp [start, after, apply, finiteCells, finite, total, foldLeft?]

/-- Taking a cell goes from the state after some cells to the state after one more. -/
theorem apply_after (function : AggregateFunction) (seed : CountSeed) {cells : List Cell}
    (some : cells ≠ []) (cell : Cell) :
    (after function seed cells).apply cell = after function seed (cells ++ [cell]) := by
  cases function with
  | count => simp [after, apply, countOf_append seed some]
  | other =>
    obtain ⟨first, later, rfl⟩ := List.exists_cons_of_ne_nil some
    rfl
  | sum =>
    cases finite : cell.finite? with
    | none => simp [after, apply, finite, finiteCells_append_other finite]
    | some x =>
      by_cases nothing : finiteCells cells = []
      · simp [after, apply, finite, finiteCells_append finite, nothing, total]
      · simp [after, apply, finite, finiteCells_append finite, nothing, total_append]
  | average =>
    cases finite : cell.finite? with
    | none => simp [after, apply, finite, finiteCells_append_other finite]
    | some x => simp [after, apply, finite, finiteCells_append finite, total_append]
  | minimum =>
    cases finite : cell.finite? with
    | none => simp [after, apply, finite, finiteCells_append_other finite]
    | some x => simp [after, apply, finite, finiteCells_append finite, foldLeft?_append]
  | maximum =>
    cases finite : cell.finite? with
    | none => simp [after, apply, finite, finiteCells_append_other finite]
    | some x => simp [after, apply, finite, finiteCells_append finite, foldLeft?_append]

/-- The result after some cells is the value of the function over them. -/
theorem result_after (function : AggregateFunction) (seed : CountSeed) (cells : List Cell) :
    (after function seed cells).result = function.over seed cells := by
  cases function with
  | sum =>
    by_cases nothing : finiteCells cells = []
    · simp [after, result, AggregateFunction.over, nothing, cellOf]
    · simp [after, result, AggregateFunction.over, nothing, cellOf]
  | average =>
    by_cases nothing : finiteCells cells = []
    · simp [after, result, AggregateFunction.over, nothing]
    · simp [after, result, AggregateFunction.over, nothing]
  | _ => rfl

/-- Taking further cells one at a time leads to the state after all of them. -/
theorem foldl_apply_after (function : AggregateFunction) (seed : CountSeed) {cells : List Cell}
    (some : cells ≠ []) (later : List Cell) :
    later.foldl apply (after function seed cells) = after function seed (cells ++ later) := by
  induction later generalizing cells with
  | nil => simp
  | cons cell later inductionHypothesis =>
    rw [List.foldl_cons, apply_after function seed some, inductionHypothesis (by simp),
      List.append_assoc, List.singleton_append]

/-- An aggregation over a group has the value of its function over the cells of
the group as its result. -/
theorem result_foldl_start (function : AggregateFunction) (seed : CountSeed) (cell : Cell)
    (later : List Cell) :
    (later.foldl apply (start function cell seed)).result = function.over seed (cell :: later) := by
  rw [start_eq_after, foldl_apply_after function seed (by simp), result_after,
    List.singleton_append]

end Accumulator

end MetricQuery
