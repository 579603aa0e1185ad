import MetricQuery.Proofs.Accumulator
import MetricQuery.Proofs.Decimal.Finite

/-!
# Finite results

An aggregation takes only finite numbers, and what it picks among them is finite. What it
computes from them need not be. A count is checked before it is shown. A sum is not, and it
leaves the finite numbers where it becomes too large; the division by which it becomes an
average does not bring it back. So results are finite exactly as long as the sum is.

How large the numbers may be follows from their number. A sum that is rounded stays within
every bound that a number holds, and the multiples of a power of two are such bounds up to
the one with the factor `2 ^ 53`. So after each step the sum is within as many powers of two
as it has terms, if each term is within one.
-/

namespace MetricQuery

open Decimal (HasValue Holds)

/-! ## Finite cells -/

/-- A cell that counts as a finite number counts as one that is finite. -/
theorem Cell.isFinite_of_finite? {cell : Cell} {x : Float} (finite : cell.finite? = some x) :
    isFinite x = true := by
  cases cell with
  | number value =>
    rw [Cell.finite?] at finite
    split at finite
    case isTrue inside =>
      obtain rfl := Option.some.inj finite
      exact inside
    case isFalse => cases finite
  | text value =>
    rw [Cell.finite?, textFinite?] at finite
    split at finite
    · cases finite
    · exact (Option.filter_eq_some_iff.mp finite).2
  | null => cases finite

/-- All finite numbers among some cells are finite. -/
theorem isFinite_of_mem_finiteCells {cells : List Cell} {x : Float} (member : x ∈ finiteCells cells) :
    isFinite x = true := by
  obtain ⟨cell, _, finite⟩ := List.mem_filterMap.mp member
  exact cell.isFinite_of_finite? finite

/-- There are no finite numbers among some cells if no cell counts as one. -/
theorem finiteCells_eq_nil_iff {cells : List Cell} :
    finiteCells cells = [] ↔ ∀ cell ∈ cells, cell.finite? = none :=
  List.filterMap_eq_nil_iff

/-- Whether a cell is empty or holds a finite number. -/
def Cell.IsFiniteOrNull (cell : Cell) : Prop := cell = .null ∨ ∃ x, cell = .number x ∧ isFinite x = true

/-! ## Smallest and largest numbers -/

/-- Folding some numbers by an operation that picks one of two numbers picks one of them. -/
theorem mem_of_foldLeft? {operation : Float → Float → Float}
    (picks : ∀ x y, operation x y = x ∨ operation x y = y) {numbers : List Float} {x : Float}
    (folded : foldLeft? operation numbers = some x) : x ∈ numbers := by
  cases numbers with
  | nil => cases folded
  | cons first later =>
    obtain rfl := Option.some.inj folded
    clear folded
    induction later generalizing first with
    | nil => exact List.mem_cons_self
    | cons next later inductionHypothesis =>
      rw [List.foldl_cons]
      rcases List.mem_cons.mp (inductionHypothesis (operation first next)) with here | behind
      · rw [here]
        rcases picks first next with left | right
        · rw [left]
          exact List.mem_cons_self
        · rw [right]
          exact List.mem_cons_of_mem _ List.mem_cons_self
      · exact List.mem_cons_of_mem _ (List.mem_cons_of_mem _ behind)

/-- Nothing is picked only if there is no number. -/
theorem foldLeft?_eq_none_iff {operation : Float → Float → Float} {numbers : List Float} :
    foldLeft? operation numbers = none ↔ numbers = [] := by
  cases numbers <;> simp [foldLeft?]

/-- The smaller of two numbers is one of them. -/
theorem smaller_picks (x y : Float) : smaller x y = x ∨ smaller x y = y := by
  rw [smaller]
  split
  · exact .inl rfl
  · exact .inr rfl

/-- The larger of two numbers is one of them. -/
theorem larger_picks (x y : Float) : larger x y = x ∨ larger x y = y := by
  rw [larger]
  split
  · exact .inl rfl
  · exact .inr rfl

/-! ## Sums -/

/-- Adding numbers of bounded magnitude to a number that is at most so many times the bound
leaves a number that is at most so many times the bound, while the count can be held. -/
theorem exists_hasValue_foldl {numbers : List Float} {count places : Nat} {start : Float}
    (fits : places ≤ 900) (small : ∀ x ∈ numbers, ∃ value, HasValue x value ∧ |value| ≤ 2 ^ places)
    (few : count + numbers.length ≤ 2 ^ 53)
    (started : ∃ value, HasValue start value ∧ |value| ≤ count * 2 ^ places) :
    ∃ value, HasValue (numbers.foldl (· + ·) start) value := by
  induction numbers generalizing count start with
  | nil =>
    obtain ⟨value, hasValue, _⟩ := started
    exact ⟨value, hasValue⟩
  | cons x numbers inductionHypothesis =>
    obtain ⟨here, behind⟩ := List.forall_mem_cons.mp small
    obtain ⟨value, hasValue, within⟩ := started
    obtain ⟨other, hasOther, within'⟩ := here
    rw [List.length_cons] at few
    have held : ∃ y, Holds y (((count + 1) * 2 ^ places : Nat) : ℚ) :=
      ⟨_, Decimal.holds_ofNat (Nat.succ_pos count) (by omega) fits⟩
    have sum : |value + other| ≤ (((count + 1) * 2 ^ places : Nat) : ℚ) := by
      calc |value + other| ≤ |value| + |other| := abs_add_le value other
        _ ≤ count * 2 ^ places + 2 ^ places := add_le_add within within'
        _ = (((count + 1) * 2 ^ places : Nat) : ℚ) := by
          push_cast
          ring
    obtain ⟨result, hasResult, bounded⟩ := hasValue.add hasOther held sum
    have fewer : count + 1 + numbers.length ≤ 2 ^ 53 := by omega
    refine inductionHypothesis behind fewer ⟨result, hasResult, ?_⟩
    push_cast at bounded ⊢
    exact bounded

/-- The sum of numbers of bounded magnitude is finite, unless there are very many. -/
theorem isFinite_total {numbers : List Float} {places : Nat} (fits : places ≤ 900)
    (few : numbers.length ≤ 2 ^ 53)
    (small : ∀ x ∈ numbers, ∃ value, HasValue x value ∧ |value| ≤ 2 ^ places) :
    isFinite (total numbers) = true := by
  have nothing : ∃ value, HasValue zero value ∧ |value| ≤ ((0 : Nat) : ℚ) * 2 ^ places :=
    ⟨0, ⟨false, 0, -1074, by decide, by simp [Decimal.withSign]⟩, by simp⟩
  exact Decimal.isFinite_iff.mpr (exists_hasValue_foldl fits small (by omega) nothing)

/-! ## Results -/

/-- A number is finite as a cell if it is finite. -/
theorem Cell.isFiniteOrNull_number {x : Float} :
    (Cell.number x).IsFiniteOrNull ↔ isFinite x = true := by
  simp [Cell.IsFiniteOrNull]

/-- What a fold picks among finite numbers, if anything, is finite. -/
theorem isFiniteOrNull_cellOf {operation : Float → Float → Float}
    (picks : ∀ x y, operation x y = x ∨ operation x y = y) (cells : List Cell) :
    (Accumulator.cellOf (foldLeft? operation (finiteCells cells))).IsFiniteOrNull := by
  cases folded : foldLeft? operation (finiteCells cells) with
  | none => exact .inl rfl
  | some x =>
    exact Cell.isFiniteOrNull_number.mpr
      (isFinite_of_mem_finiteCells (mem_of_foldLeft? picks folded))

/-- Nothing is picked among finite numbers only if there are none. -/
theorem cellOf_foldLeft?_eq_null_iff {operation : Float → Float → Float} {numbers : List Float} :
    Accumulator.cellOf (foldLeft? operation numbers) = .null ↔ numbers = [] := by
  rw [← foldLeft?_eq_none_iff]
  cases foldLeft? operation numbers <;> simp [Accumulator.cellOf]

namespace AggregateFunction

variable {function : AggregateFunction}

/-- The value of a known function is finite or empty, unless it is made of a sum that is
not finite. -/
theorem isFiniteOrNull_over_iff (known : ∀ name, function ≠ .other name) (seed : CountSeed)
    (cells : List Cell) :
    (function.over seed cells).IsFiniteOrNull ↔
      (function = .sum ∨ function = .average → isFinite (total (finiteCells cells)) = true) := by
  have nothing : isFinite (total []) = true := by decide
  cases function with
  | sum =>
    by_cases none : finiteCells cells = []
    · simp [AggregateFunction.over, none, nothing, Cell.IsFiniteOrNull]
    · simp [AggregateFunction.over, none, Cell.isFiniteOrNull_number]
  | average =>
    by_cases none : finiteCells cells = []
    · simp [AggregateFunction.over, none, nothing, Cell.IsFiniteOrNull]
    · have some := List.length_pos_iff.mpr none
      simp [AggregateFunction.over, none, Cell.isFiniteOrNull_number, Decimal.isFinite_div_ofNat _ some]
  | count =>
    refine iff_of_true ?_ (by simp)
    rw [AggregateFunction.over, Cell.ofFinite]
    split
    case isTrue finite => exact Cell.isFiniteOrNull_number.mpr finite
    case isFalse => exact .inl rfl
  | minimum => exact iff_of_true (isFiniteOrNull_cellOf smaller_picks cells) (by simp)
  | maximum => exact iff_of_true (isFiniteOrNull_cellOf larger_picks cells) (by simp)
  | other name => exact absurd rfl (known name)

/-- The value of a known function that is no count is empty only if no cell counts as a
finite number. -/
theorem over_eq_null_iff (known : ∀ name, function ≠ .other name) (notCount : function ≠ .count)
    (seed : CountSeed) (cells : List Cell) :
    function.over seed cells = .null ↔ ∀ cell ∈ cells, cell.finite? = none := by
  rw [← finiteCells_eq_nil_iff]
  cases function with
  | sum => simp [AggregateFunction.over]
  | average => simp [AggregateFunction.over]
  | count => exact absurd rfl notCount
  | minimum => exact cellOf_foldLeft?_eq_null_iff
  | maximum => exact cellOf_foldLeft?_eq_null_iff
  | other name => exact absurd rfl (known name)

end AggregateFunction

/-- For every function that is known, every policy for the first cell of a count and every
first cell, after any further cells: the result is empty or a finite number if and only if
the function makes no sum, or the sum so far is finite. The result of a function that is no
count is empty if and only if no cell so far counts as a finite number. And a sum is finite,
so that every result is finite or empty, as long as no more than `2 ^ 53` finite numbers were
added and none of them is larger than `2 ^ 900`. -/
theorem result_finite_iff_sum_finite (function : AggregateFunction)
    (known : ∀ name, function ≠ .other name) (seed : CountSeed) (first : Cell) (later : List Cell) :
    let cells := first :: later
    let result := (later.foldl Accumulator.apply (Accumulator.start function first seed)).result
    (result.IsFiniteOrNull ↔
      (function = .sum ∨ function = .average → isFinite (total (finiteCells cells)) = true)) ∧
    (function ≠ .count → (result = .null ↔ ∀ cell ∈ cells, cell.finite? = none)) ∧
    ((finiteCells cells).length ≤ 2 ^ 53 →
      (∀ x ∈ finiteCells cells, ∃ value, HasValue x value ∧ |value| ≤ 2 ^ 900) →
        result.IsFiniteOrNull) := by
  intro cells result
  have value : result = function.over seed cells :=
    Accumulator.result_foldl_start function seed first later
  rw [value, AggregateFunction.isFiniteOrNull_over_iff known]
  refine ⟨Iff.rfl, ?_, ?_⟩
  · intro notCount
    exact AggregateFunction.over_eq_null_iff known notCount seed cells
  · intro few small _
    exact isFinite_total (le_refl 900) few small

/-- An average of two numbers, with a text that is no number and an empty cell between them,
is finite and not empty. -/
theorem result_finite_of_mixed_cells :
    let first := Cell.text "2.5"
    let later := [.text "west", .null, .number (Decimal.ofNat 4)]
    let result := (later.foldl Accumulator.apply (Accumulator.start .average first .one)).result
    (∀ name, AggregateFunction.average ≠ .other name) ∧ result.IsFiniteOrNull ∧ result ≠ .null := by
  intro first later result
  have known : ∀ name, AggregateFunction.average ≠ .other name := by simp
  obtain ⟨finite, empty, _⟩ := result_finite_iff_sum_finite .average known .one first later
  refine ⟨known, finite.mpr fun _ => ?_, fun null => ?_⟩
  · decide +kernel
  · have none := (empty (by simp)).mp null first List.mem_cons_self
    revert none
    decide +kernel

/-- The sum of two finite numbers is not finite where it is too large, and then their average
is not finite either, although it lies between them. -/
theorem average_of_finite_not_finite :
    let huge := Decimal.ofDecimal false 1 308
    let result (function : AggregateFunction) :=
      ([Cell.number huge].foldl Accumulator.apply
        (Accumulator.start function (.number huge) .one)).result
    (Cell.number huge).finite? = some huge ∧
      ¬ (result .average).IsFiniteOrNull ∧ ¬ (result .sum).IsFiniteOrNull := by
  intro huge result
  have average : result .average = .number (Decimal.assemble false Decimal.infinityBits) := by
    decide +kernel
  have sum : result .sum = .number (Decimal.assemble false Decimal.infinityBits) := by
    decide +kernel
  rw [average, sum, Cell.isFiniteOrNull_number]
  decide +kernel

end MetricQuery
