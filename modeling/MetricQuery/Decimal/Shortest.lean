import MetricQuery.Decimal.Binary

/-!
# Shortest decimals

The decimal text of a floating-point number has as few digits as possible while
it still reads back as that number. The reals that read back as a number form
an interval around it, which includes its ends exactly when the mantissa is
even. On a grid of decimals with a given last place, if any point lies in that
interval then one of the number's two neighbours on the grid does. So the
grids are tried from coarse to fine, and the first with a neighbour in the
interval settles the number of digits. Of two such neighbours the nearer one
is taken; if both are equally near, a rule of the format decides.

All comparisons are between natural numbers: the quarter of the mantissa's last
place and the grid's last place are brought to a common scale.
-/

namespace MetricQuery.Decimal

/-- Which of two equally near decimals is taken. -/
inductive Tie where
  /-- The larger one. -/
  | up
  /-- The one whose last digit is even. -/
  | even
  deriving DecidableEq, Repr

/-- A decimal: `value` times ten to `exponent`. -/
structure Digits where
  /-- The digits as a natural number. -/
  value : Nat
  /-- The place of the last digit. -/
  exponent : Int
  deriving DecidableEq, Repr

/-- A power of ten as a numerator and a denominator. -/
def powerOfTen (exponent : Int) : Nat × Nat :=
  if 0 ≤ exponent then (tenTo exponent.toNat, 1) else (1, tenTo (-exponent).toNat)

/-- A power of two as a numerator and a denominator. -/
def powerOfTwo (exponent : Int) : Nat × Nat :=
  if 0 ≤ exponent then (twoTo exponent.toNat, 1) else (1, twoTo (-exponent).toNat)

/-- The distance from a mantissa down to the nearest real that no longer reads
back, in quarters of its last place. Below a power of two the numbers are twice
as dense, except at the smallest exponent. -/
def quartersBelow (mantissa : Nat) (exponent : Int) : Nat :=
  if mantissa = twoTo 52 ∧ -1074 < exponent then 1 else 2

/-- The decimal on the grid with last place `place` that reads back as the given
number and is nearest to it, if the grid has one. -/
def onGrid (tie : Tie) (mantissa : Nat) (exponent place : Int) : Option Digits :=
  let quarter := powerOfTwo (exponent - 2)
  let grid := powerOfTen place
  let scaled (quarters : Nat) : Nat := quarters * quarter.1 * grid.2
  let point (digits : Nat) : Nat := digits * grid.1 * quarter.2
  let value := scaled (4 * mantissa)
  let lowest := scaled (4 * mantissa - quartersBelow mantissa exponent)
  let highest := scaled (4 * mantissa + 2)
  let readsBack (digits : Nat) : Bool :=
    if mantissa % 2 = 0 then
      decide (lowest ≤ point digits) && decide (point digits ≤ highest)
    else
      decide (lowest < point digits) && decide (point digits < highest)
  let below := value / point 1
  let above := below + 1
  match readsBack below, readsBack above with
  | false, false => none
  | true, false => some ⟨below, place⟩
  | false, true => some ⟨above, place⟩
  | true, true =>
      let fromBelow := value - point below
      let toAbove := point above - value
      if fromBelow < toAbove then some ⟨below, place⟩
      else if toAbove < fromBelow then some ⟨above, place⟩
      else match tie with
        | .up => some ⟨above, place⟩
        | .even => if below % 2 = 0 then some ⟨below, place⟩ else some ⟨above, place⟩

/-- Try grids from the given place downwards, at most `attempts` of them, and
take the last one's lower neighbour if none has a point that reads back. -/
def firstGrid (tie : Tie) (mantissa : Nat) (exponent : Int) : Nat → Int → Digits
  | 0, place =>
      let quarter := powerOfTwo exponent
      let grid := powerOfTen place
      ⟨mantissa * quarter.1 * grid.2 / (quarter.2 * grid.1), place⟩
  | attempts + 1, place =>
      match onGrid tie mantissa exponent place with
      | some digits => digits
      | none => firstGrid tie mantissa exponent attempts (place - 1)

/-- The number of places before the decimal point of a positive binary
fraction; zero or less if it starts with a zero after the point.

To halve a number is to multiply it by five and to move its point by one place,
so every binary fraction is a whole number with its point moved. -/
def leadingPlace (mantissa : Nat) (exponent : Int) : Int :=
  if 0 ≤ exponent then digitCount (mantissa * twoTo exponent.toNat)
  else
    let places := (-exponent).toNat
    (digitCount (mantissa * fiveTo places) : Int) - places

/-- A decimal without trailing zeros; each of `zeros` steps may drop one. -/
def dropZeros : Nat → Digits → Digits
  | 0, digits => digits
  | zeros + 1, digits =>
      if digits.value % 10 = 0 ∧ digits.value ≠ 0 then
        dropZeros zeros ⟨digits.value / 10, digits.exponent + 1⟩
      else digits

/-- The shortest decimal that reads back as a positive binary fraction. -/
def shortest (tie : Tie) (mantissa : Nat) (exponent : Int) : Digits :=
  let found := firstGrid tie mantissa exponent 17 (leadingPlace mantissa exponent - 1)
  dropZeros (digitCount found.value) found

end MetricQuery.Decimal
