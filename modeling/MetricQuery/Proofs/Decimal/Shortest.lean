import MetricQuery.Proofs.Decimal.Rounding

/-!
# Shortest decimals are rounded back

The grid search compares natural numbers on a common scale. Read as rational
numbers, the comparisons say whether a point of the grid is rounded to the
mantissa and the exponent that are to be written.

A grid without such a point is at least as coarse as the interval of the numbers
that are rounded to them, since the interval contains the number itself. Sixteen
places after its leading one, the grid is finer than the interval of any
mantissa of 53 bits, so one of the seventeen grids has a point. Dropping zeros
does not change its value.

The main statement is that the shortest decimal of a positive binary fraction is
rounded to its mantissa and its exponent.
-/

namespace MetricQuery.Decimal

/-- A power of ten as a rational number. -/
theorem cast_tenTo (n : Nat) : (tenTo n : ℚ) = 10 ^ (n : ℤ) := by
  simp [tenTo]

/-- A power of ten is positive. -/
theorem tenTo_pos (n : Nat) : 0 < tenTo n := Nat.pow_pos (by decide)

/-- A power of two is the quotient of its numerator and its denominator. -/
theorem powerOfTwo_spec (exponent : Int) :
    0 < (powerOfTwo exponent).2 ∧
      ((powerOfTwo exponent).1 : ℚ) = 2 ^ exponent * (powerOfTwo exponent).2 := by
  by_cases sign : 0 ≤ exponent
  · have same : powerOfTwo exponent = (twoTo exponent.toNat, 1) := if_pos sign
    obtain ⟨places, rfl⟩ := Int.eq_ofNat_of_zero_le sign
    rw [same]
    exact ⟨Nat.one_pos, by simp [cast_twoTo]⟩
  · have same : powerOfTwo exponent = (1, twoTo (-exponent).toNat) := if_neg sign
    obtain ⟨places, rfl⟩ : ∃ places : Nat, exponent = -places := ⟨(-exponent).toNat, by omega⟩
    rw [same]
    exact ⟨twoTo_pos _, by simp [cast_twoTo]⟩

/-- A power of ten is the quotient of its numerator and its denominator. -/
theorem powerOfTen_spec (exponent : Int) :
    0 < (powerOfTen exponent).1 ∧ 0 < (powerOfTen exponent).2 ∧
      ((powerOfTen exponent).1 : ℚ) = 10 ^ exponent * (powerOfTen exponent).2 := by
  by_cases sign : 0 ≤ exponent
  · have same : powerOfTen exponent = (tenTo exponent.toNat, 1) := if_pos sign
    obtain ⟨places, rfl⟩ := Int.eq_ofNat_of_zero_le sign
    rw [same]
    exact ⟨tenTo_pos _, Nat.one_pos, by simp [cast_tenTo]⟩
  · have same : powerOfTen exponent = (1, tenTo (-exponent).toNat) := if_neg sign
    obtain ⟨places, rfl⟩ : ∃ places : Nat, exponent = -places := ⟨(-exponent).toNat, by omega⟩
    rw [same]
    exact ⟨Nat.one_pos, tenTo_pos _, by simp [cast_tenTo]⟩

variable {mantissa : Nat} {exponent place : Int}

/-- The value of a decimal. -/
def Digits.toRat (digits : Digits) : ℚ := digits.value * 10 ^ digits.exponent

/-- So many quarters of a mantissa's last place on the scale of the grid search. -/
def scaled (exponent place : Int) (quarters : Nat) : Nat :=
  quarters * (powerOfTwo (exponent - 2)).1 * (powerOfTen place).2

/-- A point of the grid on the scale of the grid search. -/
def point (exponent place : Int) (digits : Nat) : Nat :=
  digits * (powerOfTen place).1 * (powerOfTwo (exponent - 2)).2

/-- Whether a point of the grid is found to read back. -/
def readsBack (mantissa : Nat) (exponent place : Int) (digits : Nat) : Bool :=
  let lowest := scaled exponent place (4 * mantissa - quartersBelow mantissa exponent)
  let highest := scaled exponent place (4 * mantissa + 2)
  if mantissa % 2 = 0 then
    decide (lowest ≤ point exponent place digits) && decide (point exponent place digits ≤ highest)
  else
    decide (lowest < point exponent place digits) && decide (point exponent place digits < highest)

/-- The point of the grid next to a number from below. -/
def pointBelow (mantissa : Nat) (exponent place : Int) : Nat :=
  scaled exponent place (4 * mantissa) / point exponent place 1

/-- The scale of the grid search is a common denominator. -/
theorem scale_spec (exponent place : Int) : ∃ scale : ℚ, 0 < scale ∧
    (∀ quarters : Nat, (scaled exponent place quarters : ℚ) =
      quarters * 2 ^ (exponent - 2) * scale) ∧
    ∀ digits : Nat, (point exponent place digits : ℚ) = digits * 10 ^ place * scale := by
  obtain ⟨quarterPositive, quarter⟩ := powerOfTwo_spec (exponent - 2)
  obtain ⟨_, gridPositive, grid⟩ := powerOfTen_spec place
  refine ⟨(powerOfTwo (exponent - 2)).2 * (powerOfTen place).2, by positivity, ?_, ?_⟩
  · intro quarters
    rw [scaled]
    push_cast
    rw [quarter]
    ring
  · intro digits
    rw [point]
    push_cast
    rw [grid]
    ring

/-- A point of the grid is found to read back exactly if it is rounded to the number. -/
theorem readsBack_iff (positive : 0 < mantissa) (digits : Nat) :
    readsBack mantissa exponent place digits = true ↔
      RoundsTo mantissa exponent (digits * 10 ^ place) := by
  obtain ⟨scale, scalePositive, quarters, points⟩ := scale_spec exponent place
  have quartersSmall : quartersBelow mantissa exponent ≤ 4 * mantissa := by
    rcases quartersBelow_cases mantissa exponent with ⟨one, _⟩ | ⟨two, _⟩ <;> omega
  have unit : (0 : ℚ) < 2 ^ exponent * scale := by positivity
  have quarter : (2 : ℚ) ^ (exponent - 2) = 2 ^ exponent / 4 := by
    rw [zpow_sub₀ (by norm_num)]
    norm_num
  have lowest : (scaled exponent place (4 * mantissa - quartersBelow mantissa exponent) : ℚ) =
      (mantissa - quartersBelow mantissa exponent / 4) * (2 ^ exponent * scale) := by
    rw [quarters, Nat.cast_sub quartersSmall, quarter]
    push_cast
    ring
  have highest : (scaled exponent place (4 * mantissa + 2) : ℚ) =
      (mantissa + 1 / 2) * (2 ^ exponent * scale) := by
    rw [quarters, quarter]
    push_cast
    ring
  have middle : (point exponent place digits : ℚ) =
      digits * 10 ^ place / 2 ^ exponent * (2 ^ exponent * scale) := by
    rw [points]
    field_simp
  have whole : RoundsTo mantissa exponent (digits * 10 ^ place) ↔
      (scaled exponent place (4 * mantissa - quartersBelow mantissa exponent) ≤
          point exponent place digits ∧
        point exponent place digits ≤ scaled exponent place (4 * mantissa + 2)) ∧
      (mantissa % 2 = 1 →
        scaled exponent place (4 * mantissa - quartersBelow mantissa exponent) ≠
            point exponent place digits ∧
          point exponent place digits ≠ scaled exponent place (4 * mantissa + 2)) := by
    have cast := Nat.cast_injective (R := ℚ)
    have product := mul_left_injective₀ unit.ne'
    rw [← Nat.cast_le (α := ℚ), ← Nat.cast_le (α := ℚ), ← cast.ne_iff, ← cast.ne_iff, lowest,
      highest, middle, mul_le_mul_iff_left₀ unit, mul_le_mul_iff_left₀ unit, product.ne_iff,
      product.ne_iff]
    exact ⟨fun rounds => ⟨⟨rounds.lower, rounds.upper⟩, rounds.apart⟩,
      fun ⟨⟨lower, upper⟩, apart⟩ => ⟨lower, upper, apart⟩⟩
  rw [whole, readsBack]
  rcases Nat.mod_two_eq_zero_or_one mantissa with even | odd
  · rw [if_pos even, Bool.and_eq_true, decide_eq_true_eq, decide_eq_true_eq]
    omega
  · rw [if_neg (by omega), Bool.and_eq_true, decide_eq_true_eq, decide_eq_true_eq]
    omega

/-- What a grid gives in terms of its points. -/
theorem onGrid_eq (tie : Tie) (mantissa : Nat) (exponent place : Int) :
    onGrid tie mantissa exponent place =
      let below := pointBelow mantissa exponent place
      let value := scaled exponent place (4 * mantissa)
      match readsBack mantissa exponent place below,
        readsBack mantissa exponent place (below + 1) with
      | false, false => none
      | true, false => some ⟨below, place⟩
      | false, true => some ⟨below + 1, place⟩
      | true, true =>
          let fromBelow := value - point exponent place below
          let toAbove := point exponent place (below + 1) - value
          if fromBelow < toAbove then some ⟨below, place⟩
          else if toAbove < fromBelow then some ⟨below + 1, place⟩
          else match tie with
            | .up => some ⟨below + 1, place⟩
            | .even => if below % 2 = 0 then some ⟨below, place⟩ else some ⟨below + 1, place⟩ :=
  rfl

/-- A grid gives a point of its own that reads back, unless neither of the number's
neighbours does. -/
theorem onGrid_cases (tie : Tie) (mantissa : Nat) (exponent place : Int) :
    (∃ digits, onGrid tie mantissa exponent place = some ⟨digits, place⟩ ∧
      readsBack mantissa exponent place digits = true) ∨
    (onGrid tie mantissa exponent place = none ∧
      readsBack mantissa exponent place (pointBelow mantissa exponent place) = false ∧
      readsBack mantissa exponent place (pointBelow mantissa exponent place + 1) = false) := by
  simp only [onGrid_eq]
  cases below : readsBack mantissa exponent place (pointBelow mantissa exponent place) with
  | false =>
    cases above : readsBack mantissa exponent place (pointBelow mantissa exponent place + 1) with
    | false => exact .inr ⟨rfl, rfl, rfl⟩
    | true => exact .inl ⟨_, rfl, above⟩
  | true =>
    cases above : readsBack mantissa exponent place (pointBelow mantissa exponent place + 1) with
    | false => exact .inl ⟨_, rfl, below⟩
    | true =>
      -- Both neighbours read back, so it does not matter which one is taken.
      simp only
      split
      · exact .inl ⟨_, rfl, below⟩
      split
      · exact .inl ⟨_, rfl, above⟩
      cases tie with
      | up => exact .inl ⟨_, rfl, above⟩
      | even =>
        simp only
        split
        · exact .inl ⟨_, rfl, below⟩
        · exact .inl ⟨_, rfl, above⟩

/-- The number lies between its neighbours on a grid. -/
theorem pointBelow_spec (mantissa : Nat) (exponent place : Int) :
    (pointBelow mantissa exponent place : ℚ) * 10 ^ place ≤ mantissa * 2 ^ exponent ∧
      (mantissa : ℚ) * 2 ^ exponent <
        (pointBelow mantissa exponent place + 1 : Nat) * 10 ^ place := by
  obtain ⟨scale, scalePositive, quarters, points⟩ := scale_spec exponent place
  have one : (point exponent place 1 : ℚ) = 10 ^ place * scale := by
    rw [points, Nat.cast_one, one_mul]
  have onePositive : 0 < point exponent place 1 := by
    have positive : (0 : ℚ) < point exponent place 1 := by
      rw [one]
      positivity
    exact_mod_cast positive
  have number : (scaled exponent place (4 * mantissa) : ℚ) = mantissa * 2 ^ exponent * scale := by
    rw [quarters, zpow_sub₀ (by norm_num)]
    push_cast
    ring
  have lower : (pointBelow mantissa exponent place : ℚ) * point exponent place 1 ≤
      scaled exponent place (4 * mantissa) := by
    exact_mod_cast Nat.div_mul_le_self (scaled exponent place (4 * mantissa)) _
  have upper : (scaled exponent place (4 * mantissa) : ℚ) <
      point exponent place 1 * (pointBelow mantissa exponent place + 1 : Nat) := by
    exact_mod_cast Nat.lt_mul_div_succ (scaled exponent place (4 * mantissa)) onePositive
  rw [number, one] at lower upper
  constructor
  · refine le_of_mul_le_mul_right ?_ scalePositive
    linarith
  · refine lt_of_mul_lt_mul_right ?_ scalePositive.le
    linarith

/-- A grid gives a decimal that is rounded back, unless it is at least as coarse as the
interval of the numbers that are rounded to the mantissa and the exponent. -/
theorem onGrid_roundsTo (tie : Tie) (positive : 0 < mantissa) (exponent place : Int) :
    (∃ digits, onGrid tie mantissa exponent place = some digits ∧
      RoundsTo mantissa exponent digits.toRat) ∨
    (onGrid tie mantissa exponent place = none ∧
      ((quartersBelow mantissa exponent : ℚ) + 2) / 4 * 2 ^ exponent ≤ 10 ^ place) := by
  rcases onGrid_cases tie mantissa exponent place with
    ⟨digits, found, reads⟩ | ⟨nothing, below, above⟩
  · exact .inl ⟨_, found, (readsBack_iff positive digits).mp reads⟩
  · refine .inr ⟨nothing, ?_⟩
    obtain ⟨lower, upper⟩ := pointBelow_spec mantissa exponent place
    have unit : (0 : ℚ) < 2 ^ exponent := by positivity
    have notBelow := mt (readsBack_iff positive _).mpr (Bool.eq_false_iff.mp below)
    have notAbove := mt (readsBack_iff positive _).mpr (Bool.eq_false_iff.mp above)
    generalize pointBelow mantissa exponent place = digits at *
    have underInterval : (digits : ℚ) * 10 ^ place ≤
        (mantissa - quartersBelow mantissa exponent / 4) * 2 ^ exponent := by
      by_contra inside
      exact notBelow (.of_between (not_le.mp inside) (by linarith))
    have overInterval : ((mantissa : ℚ) + 1 / 2) * 2 ^ exponent ≤
        (digits + 1 : Nat) * 10 ^ place := by
      by_contra inside
      have number : (mantissa - quartersBelow mantissa exponent / 4) * 2 ^ exponent ≤
          (mantissa : ℚ) * 2 ^ exponent := by
        gcongr
        exact sub_le_self _ (quartersBelow_bounds mantissa exponent).1.le
      exact notAbove (.of_between (number.trans_lt upper) (not_le.mp inside))
    push_cast at overInterval
    linarith

/-- A natural number has at least one digit. -/
theorem digitCount_pos (n : Nat) : 1 ≤ digitCount n := by
  rw [digitCount, Nat.one_le_iff_ne_zero, ne_eq, List.length_eq_zero_iff]
  exact Nat.toDigits_ne_nil

/-- A natural number is less than the power of ten with the number of its digits. -/
theorem lt_tenTo_digitCount (n : Nat) : n < tenTo (digitCount n) :=
  (Nat.length_toDigits_le_iff (by decide) (digitCount_pos n)).mp (Nat.le_refl _)

/-- A positive number has as many digits as the powers of ten around it tell. -/
theorem digitCount_spec {n : Nat} (positive : 0 < n) :
    1 ≤ digitCount n ∧ (10 : ℚ) ^ ((digitCount n : ℤ) - 1) ≤ n ∧
      (n : ℚ) < 10 ^ (digitCount n : ℤ) := by
  have some := digitCount_pos n
  have below := lt_tenTo_digitCount n
  have above : 10 ^ (digitCount n - 1) ≤ n := by
    by_contra small
    rcases Nat.eq_zero_or_pos (digitCount n - 1) with zero | more
    · rw [zero] at small
      omega
    · have shorter := (Nat.length_toDigits_le_iff (by decide) more).mpr (Nat.lt_of_not_le small)
      rw [← digitCount] at shorter
      omega
  refine ⟨some, ?_, ?_⟩
  · rw [show ((digitCount n : ℤ) - 1) = ((digitCount n - 1 : Nat) : ℤ) by omega]
    exact_mod_cast above
  · rw [← cast_tenTo]
    exact_mod_cast below

/-- A power of five is a power of ten divided by a power of two. -/
theorem cast_fiveTo (n : Nat) : (fiveTo n : ℚ) * 2 ^ (n : ℤ) = 10 ^ (n : ℤ) := by
  rw [← cast_twoTo, ← cast_tenTo]
  exact_mod_cast fiveTo_mul_twoTo n

/-- A positive number is at least a power of ten with the number of its leading places. -/
theorem leadingPlace_spec (positive : 0 < mantissa) (exponent : Int) :
    (10 : ℚ) ^ (leadingPlace mantissa exponent - 1) ≤ mantissa * 2 ^ exponent := by
  by_cases sign : 0 ≤ exponent
  · obtain ⟨places, rfl⟩ := Int.eq_ofNat_of_zero_le sign
    have bound := (digitCount_spec (Nat.mul_pos positive (twoTo_pos places))).2.1
    push_cast [cast_twoTo] at bound
    rw [leadingPlace, if_pos sign]
    exact bound
  · obtain ⟨places, rfl⟩ : ∃ places : Nat, exponent = -places := ⟨(-exponent).toNat, by omega⟩
    have fivePositive : 0 < fiveTo places := Nat.pow_pos (by decide)
    have bound := (digitCount_spec (Nat.mul_pos positive fivePositive)).2.1
    have same : ((-(-(places : ℤ))).toNat) = places := by omega
    have ten : (0 : ℚ) < 10 ^ (places : ℤ) := by positivity
    rw [leadingPlace, if_neg sign, same]
    dsimp only
    rw [show ∀ count : ℤ, count - places - 1 = (count - 1) - places by intro count; omega,
      zpow_sub₀ (by norm_num), div_le_iff₀ ten, ← cast_fiveTo]
    refine bound.trans (le_of_eq ?_)
    push_cast
    rw [zpow_neg]
    field_simp

/-- Sixteen places after the leading one, the grid is finer than the interval of the
numbers that are rounded to the mantissa and the exponent. -/
theorem fine_of_isEncoded (positive : 0 < mantissa) (encoded : IsEncoded mantissa exponent) :
    (10 : ℚ) ^ (leadingPlace mantissa exponent - 17) <
      ((quartersBelow mantissa exponent : ℚ) + 2) / 4 * 2 ^ exponent := by
  have unit : (0 : ℚ) < 2 ^ exponent := by positivity
  have leading := leadingPlace_spec positive exponent
  have step : (10 : ℚ) ^ (leadingPlace mantissa exponent - 1) =
      10 ^ (leadingPlace mantissa exponent - 17) * 10 ^ 16 := by
    rw [show leadingPlace mantissa exponent - 1 = leadingPlace mantissa exponent - 17 + (16 : ℕ) by
      omega, zpow_add₀ (by norm_num), zpow_natCast]
  rw [step] at leading
  rcases quartersBelow_cases mantissa exponent with ⟨one, rfl, _⟩ | ⟨two, _⟩
  · rw [one]
    push_cast at leading ⊢
    linarith
  · have short : (mantissa : ℚ) ≤ 2 ^ 53 := by exact_mod_cast encoded.short.le
    have bound : (mantissa : ℚ) * 2 ^ exponent ≤ 2 ^ 53 * 2 ^ exponent := by gcongr
    rw [two]
    push_cast
    linarith

/-- The search ends with a decimal that is rounded back if the last grid that is tried is
fine enough. -/
theorem firstGrid_roundsTo (tie : Tie) (positive : 0 < mantissa) (attempts : Nat)
    (fine : (10 : ℚ) ^ (place - attempts) <
      ((quartersBelow mantissa exponent : ℚ) + 2) / 4 * 2 ^ exponent) :
    RoundsTo mantissa exponent (firstGrid tie mantissa exponent (attempts + 1) place).toRat := by
  induction attempts generalizing place with
  | zero =>
    rcases onGrid_roundsTo tie positive exponent place with ⟨digits, found, rounds⟩ | ⟨_, coarse⟩
    · rwa [firstGrid, found]
    · -- The only grid is the fine one.
      rw [Nat.cast_zero, sub_zero] at fine
      exact absurd fine coarse.not_gt
  | succ attempts inductionHypothesis =>
    rcases onGrid_roundsTo tie positive exponent place with ⟨digits, found, rounds⟩ | ⟨nothing, _⟩
    · rwa [firstGrid, found]
    · rw [firstGrid, nothing]
      refine inductionHypothesis ?_
      rwa [show place - 1 - (attempts : ℤ) = place - (attempts + 1 : Nat) by omega]

/-- A decimal without its trailing zeros has the same value. -/
theorem toRat_dropZeros (zeros : Nat) (digits : Digits) :
    (dropZeros zeros digits).toRat = digits.toRat := by
  induction zeros generalizing digits with
  | zero => rfl
  | succ zeros inductionHypothesis =>
    rw [dropZeros]
    split
    · rename_i last
      have whole : (digits.value : ℚ) = (digits.value / 10 : Nat) * 10 := by
        exact_mod_cast (Nat.div_mul_cancel (Nat.dvd_of_mod_eq_zero last.1)).symm
      rw [inductionHypothesis, Digits.toRat, Digits.toRat, whole, zpow_add_one₀ (by norm_num)]
      ring
    · rfl

/-- The shortest decimal of a positive number is rounded to the mantissa and the exponent
of the number. -/
theorem shortest_roundsTo (tie : Tie) (positive : 0 < mantissa)
    (encoded : IsEncoded mantissa exponent) :
    RoundsTo mantissa exponent (shortest tie mantissa exponent).toRat := by
  have last : leadingPlace mantissa exponent - 1 - (16 : Nat) =
      leadingPlace mantissa exponent - 17 := by omega
  have fine := fine_of_isEncoded positive encoded
  rw [← last] at fine
  have found := firstGrid_roundsTo tie positive 16 fine
  rwa [shortest, toRat_dropZeros]

/-! ## The number of digits -/

/-- A positive number is less than the power of ten with the number of its leading places. -/
theorem lt_leadingPlace (positive : 0 < mantissa) (exponent : Int) :
    (mantissa : ℚ) * 2 ^ exponent < 10 ^ leadingPlace mantissa exponent := by
  by_cases sign : 0 ≤ exponent
  · obtain ⟨places, rfl⟩ := Int.eq_ofNat_of_zero_le sign
    have bound := (digitCount_spec (Nat.mul_pos positive (twoTo_pos places))).2.2
    push_cast [cast_twoTo] at bound
    rw [leadingPlace, if_pos sign]
    exact bound
  · obtain ⟨places, rfl⟩ : ∃ places : Nat, exponent = -places := ⟨(-exponent).toNat, by omega⟩
    have fivePositive : 0 < fiveTo places := Nat.pow_pos (by decide)
    have bound := (digitCount_spec (Nat.mul_pos positive fivePositive)).2.2
    have same : ((-(-(places : ℤ))).toNat) = places := by omega
    have ten : (0 : ℚ) < 10 ^ (places : ℤ) := by positivity
    rw [leadingPlace, if_neg sign, same]
    dsimp only
    rw [zpow_sub₀ (by norm_num), lt_div_iff₀ ten, ← cast_fiveTo]
    refine lt_of_eq_of_lt ?_ bound
    push_cast
    rw [zpow_neg]
    field_simp

/-- The grid that settles the digits is one of those that are tried. -/
theorem firstGrid_place (tie : Tie) (mantissa : Nat) (exponent : Int) (attempts : Nat)
    (place : Int) :
    place - attempts ≤ (firstGrid tie mantissa exponent attempts place).exponent := by
  induction attempts generalizing place with
  | zero => simp [firstGrid]
  | succ attempts inductionHypothesis =>
    rw [firstGrid]
    rcases onGrid_cases tie mantissa exponent place with ⟨digits, found, _⟩ | ⟨nothing, _⟩
    · rw [found]
      dsimp only
      omega
    · rw [nothing]
      have behind := inductionHypothesis (place - 1)
      dsimp only
      omega

/-- Dropping zeros makes digits no larger. -/
theorem value_dropZeros_le (zeros : Nat) (digits : Digits) :
    (dropZeros zeros digits).value ≤ digits.value := by
  induction zeros generalizing digits with
  | zero => exact Nat.le_refl _
  | succ zeros inductionHypothesis =>
    rw [dropZeros]
    split
    · exact (inductionHypothesis _).trans (Nat.div_le_self _ _)
    · exact Nat.le_refl _

/-- The digits of the shortest decimal of a positive number fit 64 bits. -/
theorem shortest_value_le (tie : Tie) (positive : 0 < mantissa)
    (encoded : IsEncoded mantissa exponent) :
    (shortest tie mantissa exponent).value ≤ 2 * 10 ^ 18 := by
  rw [shortest]
  refine (value_dropZeros_le _ _).trans ?_
  have last : leadingPlace mantissa exponent - 1 - (16 : Nat) =
      leadingPlace mantissa exponent - 17 := by omega
  have fine := fine_of_isEncoded positive encoded
  rw [← last] at fine
  have rounds := firstGrid_roundsTo tie positive 16 fine
  have place := firstGrid_place tie mantissa exponent 17 (leadingPlace mantissa exponent - 1)
  generalize firstGrid tie mantissa exponent 17 (leadingPlace mantissa exponent - 1) = digits at *
  have unit : (0 : ℚ) < 2 ^ exponent := by positivity
  have ten : (0 : ℚ) < 10 ^ digits.exponent := by positivity
  have some : (1 : ℚ) ≤ mantissa := by exact_mod_cast positive
  have whole : (digits.value : ℚ) * 10 ^ digits.exponent ≤ 2 * 10 ^ 18 * 10 ^ digits.exponent := by
    calc (digits.value : ℚ) * 10 ^ digits.exponent
        ≤ (mantissa + 1 / 2) * 2 ^ exponent := (div_le_iff₀ unit).mp rounds.upper
      _ ≤ 2 * (mantissa * 2 ^ exponent) := by
          rw [← mul_assoc]
          exact mul_le_mul_of_nonneg_right (by linarith) unit.le
      _ ≤ 2 * 10 ^ leadingPlace mantissa exponent :=
          mul_le_mul_of_nonneg_left (lt_leadingPlace positive exponent).le (by norm_num)
      _ ≤ 2 * 10 ^ (18 + digits.exponent) := by
          refine mul_le_mul_of_nonneg_left ?_ (by norm_num)
          exact zpow_le_zpow_right₀ (by norm_num) (by omega)
      _ = 2 * 10 ^ 18 * 10 ^ digits.exponent := by
          rw [zpow_add₀ (by norm_num)]
          norm_num
          ring
  exact_mod_cast le_of_mul_le_mul_right whole ten

end MetricQuery.Decimal
