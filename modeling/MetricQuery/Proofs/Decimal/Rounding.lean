import MetricQuery.Decimal.Shortest
import MetricQuery.Proofs.Decimal.Unpacked

/-!
# The nearest binary fraction

Around every mantissa and exponent there is an interval of numbers that are
rounded to them: half of the mantissa's last place above and half of it below,
or a quarter of it below a power of two, where the numbers are twice as dense.
The ends belong to the interval exactly if the mantissa is even.

The encoding of the nearest binary fraction is found from a first guess at the
exponent, which the logarithms of numerator and denominator give up to one. The
guess is right for all numbers of the interval except those just below a power
of two. These are rounded up, in the places of the next smaller exponent, to
twice the mantissa, and since the mantissa is added to the exponent field in
place, the encoding is the same.

The main statement is that each fraction in the interval has the encoding of
the mantissa and the exponent.
-/

namespace MetricQuery.Decimal

/-- A quotient is rounded to a natural number if it is at most a half away from it, and
nearer than that if the natural number is odd. -/
theorem roundHalfEven_eq {numerator denominator nearest : Nat}
    (lower : 2 * nearest * denominator ≤ 2 * numerator + denominator)
    (upper : 2 * numerator ≤ (2 * nearest + 1) * denominator)
    (apart : nearest % 2 = 1 → 2 * nearest * denominator ≠ 2 * numerator + denominator ∧
      2 * numerator ≠ (2 * nearest + 1) * denominator) (positive : 0 < denominator) :
    roundHalfEven numerator denominator = nearest := by
  have whole : denominator * (numerator / denominator) + numerator % denominator = numerator :=
    Nat.div_add_mod numerator denominator
  have bound : numerator % denominator < denominator := Nat.mod_lt _ positive
  simp only [roundHalfEven]
  generalize numerator / denominator = quotient at *
  generalize numerator % denominator = remainder at *
  subst whole
  have atLeast : quotient ≤ nearest := by
    by_contra above
    have next : nearest + 1 ≤ quotient := by omega
    nlinarith
  have atMost : nearest ≤ quotient + 1 := by
    by_contra above
    have next : quotient + 2 ≤ nearest := by omega
    nlinarith
  rcases Nat.lt_or_ge quotient nearest with below | notBelow
  · obtain rfl : nearest = quotient + 1 := by omega
    have half : denominator ≤ 2 * remainder := by nlinarith
    have odd : 2 * remainder = denominator → quotient % 2 = 1 := by
      intro same
      by_contra even
      apply (apart (by omega)).1
      rw [← same]
      ring
    rw [if_neg (by omega)]
    split
    · rfl
    · have notEven := odd (by omega)
      rw [if_neg (by omega)]
  · obtain rfl : nearest = quotient := by omega
    have half : 2 * remainder ≤ denominator := by nlinarith
    have even : 2 * remainder = denominator → nearest % 2 = 0 := by
      intro same
      by_contra odd
      apply (apart (by omega)).2
      rw [← same]
      ring
    split
    · rfl
    · rw [if_neg (by omega), if_pos (even (by omega))]

/-- A power of two is positive. -/
theorem twoTo_pos (n : Nat) : 0 < twoTo n := Nat.two_pow_pos n

/-- A power of two as a rational number. -/
theorem cast_twoTo (n : Nat) : (twoTo n : ℚ) = 2 ^ (n : ℤ) := by
  simp [twoTo]

/-- A fraction divided by a power of two is the quotient of two natural numbers again. -/
theorem overTwo_spec (numerator : Nat) {denominator : Nat} (positive : 0 < denominator)
    (exponent : Int) :
    let quotient := overTwo numerator denominator exponent
    0 < quotient.2 ∧
      (quotient.1 : ℚ) / quotient.2 = (numerator : ℚ) / denominator / 2 ^ exponent := by
  intro quotient
  by_cases sign : 0 ≤ exponent
  · have same : quotient = (numerator, denominator * twoTo exponent.toNat) := if_pos sign
    obtain ⟨places, rfl⟩ := Int.eq_ofNat_of_zero_le sign
    rw [same]
    constructor
    · exact Nat.mul_pos positive (twoTo_pos _)
    · push_cast [cast_twoTo]
      rw [div_div]
      simp
  · have same : quotient = (numerator * twoTo (-exponent).toNat, denominator) := if_neg sign
    obtain ⟨places, rfl⟩ : ∃ places : Nat, exponent = -places := ⟨(-exponent).toNat, by omega⟩
    rw [same]
    constructor
    · exact positive
    · push_cast [cast_twoTo]
      rw [zpow_neg, div_inv_eq_mul]
      simp
      ring

/-- The exponent at which the nearest binary fraction has a mantissa of 53 bits. -/
def fittingExponent (numerator denominator : Nat) : Int :=
  let guess : Int := (Nat.log2 numerator : Int) - (Nat.log2 denominator : Int) - 53
  let trial := overTwo numerator denominator guess
  if twoTo 53 * trial.2 ≤ trial.1 then guess + 1 else guess

/-- A positive number lies between the powers of two that its logarithm gives. -/
theorem log2_bounds {n : Nat} (positive : 0 < n) :
    (2 : ℚ) ^ (n.log2 : ℤ) ≤ n ∧ (n : ℚ) < 2 ^ ((n.log2 : ℤ) + 1) := by
  constructor
  · exact_mod_cast Nat.log2_self_le (by omega)
  · exact_mod_cast Nat.lt_log2_self

/-- A fraction lies between the powers of two that its logarithms give. -/
theorem fraction_bounds {numerator denominator : Nat} (some : 0 < numerator)
    (positive : 0 < denominator) :
    let gap : Int := (Nat.log2 numerator : Int) - (Nat.log2 denominator : Int)
    (2 : ℚ) ^ (gap - 1) ≤ (numerator : ℚ) / denominator ∧
      (numerator : ℚ) / denominator < 2 ^ (gap + 1) := by
  intro gap
  have two : (2 : ℚ) ≠ 0 := by norm_num
  have denominatorPositive : (0 : ℚ) < denominator := by exact_mod_cast positive
  have above := log2_bounds some
  have below := log2_bounds positive
  constructor
  · rw [le_div_iff₀ denominatorPositive]
    calc (2 : ℚ) ^ (gap - 1) * denominator
        ≤ 2 ^ (gap - 1) * 2 ^ ((Nat.log2 denominator : ℤ) + 1) := by
          gcongr
          exact below.2.le
      _ = 2 ^ (Nat.log2 numerator : ℤ) := by
          rw [← zpow_add₀ two]
          congr 1
          omega
      _ ≤ numerator := above.1
  · rw [div_lt_iff₀ denominatorPositive]
    calc (numerator : ℚ) < 2 ^ ((Nat.log2 numerator : ℤ) + 1) := above.2
      _ = 2 ^ (gap + 1) * 2 ^ (Nat.log2 denominator : ℤ) := by
          rw [← zpow_add₀ two]
          congr 1
          omega
      _ ≤ 2 ^ (gap + 1) * denominator := by
          gcongr
          exact below.1

/-- The exponent that is found leaves a mantissa of 53 bits. -/
theorem fittingExponent_spec {numerator denominator : Nat} (some : 0 < numerator)
    (positive : 0 < denominator) :
    (2 : ℚ) ^ (fittingExponent numerator denominator + 52) ≤ (numerator : ℚ) / denominator ∧
      (numerator : ℚ) / denominator < 2 ^ (fittingExponent numerator denominator + 53) := by
  obtain ⟨atLeast, below⟩ := fraction_bounds some positive
  obtain ⟨trialPositive, trial⟩ := overTwo_spec numerator positive
    ((Nat.log2 numerator : Int) - (Nat.log2 denominator : Int) - 53)
  simp only [fittingExponent]
  generalize (Nat.log2 numerator : Int) - (Nat.log2 denominator : Int) = gap at *
  generalize overTwo numerator denominator (gap - 53) = quotient at *
  have decided : twoTo 53 * quotient.2 ≤ quotient.1 ↔
      (2 : ℚ) ^ gap ≤ (numerator : ℚ) / denominator := by
    have quotientPositive : (0 : ℚ) < quotient.2 := by exact_mod_cast trialPositive
    have power : (0 : ℚ) < 2 ^ (gap - 53) := by positivity
    have same : (2 : ℚ) ^ gap = 2 ^ (53 : ℤ) * 2 ^ (gap - 53) := by
      rw [← zpow_add₀ (by norm_num)]
      congr 1
      omega
    calc twoTo 53 * quotient.2 ≤ quotient.1
        ↔ (2 : ℚ) ^ (53 : ℤ) * quotient.2 ≤ quotient.1 := by
          rw [← Nat.cast_le (α := ℚ)]
          push_cast [cast_twoTo]
          rfl
      _ ↔ (2 : ℚ) ^ (53 : ℤ) ≤ (numerator : ℚ) / denominator / 2 ^ (gap - 53) := by
          rw [← trial, le_div_iff₀ quotientPositive]
      _ ↔ (2 : ℚ) ^ gap ≤ (numerator : ℚ) / denominator := by
          rw [le_div_iff₀ power, ← same]
  split
  · rename_i large
    refine ⟨?_, ?_⟩
    · rw [show gap - 53 + 1 + 52 = gap by omega]
      exact decided.mp large
    · rwa [show gap - 53 + 1 + 53 = gap + 1 by omega]
  · rename_i small
    refine ⟨?_, ?_⟩
    · rwa [show gap - 53 + 52 = gap - 1 by omega]
    · rw [show gap - 53 + 53 = gap by omega]
      exact not_le.mp (fun large => small (decided.mpr large))

/-- The numbers that are rounded to a mantissa and an exponent, in units of the
mantissa's last place. -/
structure RoundsTo (mantissa : Nat) (exponent : Int) (value : ℚ) : Prop where
  /-- The number is at most so far below. -/
  lower : (mantissa : ℚ) - quartersBelow mantissa exponent / 4 ≤ value / 2 ^ exponent
  /-- The number is at most half a place above. -/
  upper : value / 2 ^ exponent ≤ mantissa + 1 / 2
  /-- The ends do not belong to an odd mantissa. -/
  apart : mantissa % 2 = 1 →
    (mantissa : ℚ) - quartersBelow mantissa exponent / 4 ≠ value / 2 ^ exponent ∧
      value / 2 ^ exponent ≠ mantissa + 1 / 2

/-- The distance down to the numbers that are rounded differently is a quarter of the
last place for a power of two, and half of it otherwise. -/
theorem quartersBelow_cases (mantissa : Nat) (exponent : Int) :
    (quartersBelow mantissa exponent = 1 ∧ mantissa = 2 ^ 52 ∧ -1074 < exponent) ∨
      (quartersBelow mantissa exponent = 2 ∧ ¬ (mantissa = 2 ^ 52 ∧ -1074 < exponent)) := by
  by_cases sparse : mantissa = twoTo 52 ∧ -1074 < exponent
  · exact .inl ⟨if_pos sparse, sparse⟩
  · exact .inr ⟨if_neg sparse, sparse⟩

/-- The interval goes down below the number, by at most half a place. -/
theorem quartersBelow_bounds (mantissa : Nat) (exponent : Int) :
    (0 : ℚ) < quartersBelow mantissa exponent / 4 ∧
      (quartersBelow mantissa exponent : ℚ) / 4 ≤ 1 / 2 := by
  rcases quartersBelow_cases mantissa exponent with ⟨one, _⟩ | ⟨two, _⟩
  · rw [one]
    norm_num
  · rw [two]
    norm_num

/-- A number strictly inside of the interval is rounded to the mantissa and the exponent. -/
theorem RoundsTo.of_between {mantissa : Nat} {exponent : Int} {value : ℚ}
    (lower : (mantissa - quartersBelow mantissa exponent / 4) * 2 ^ exponent < value)
    (upper : value < (mantissa + 1 / 2) * 2 ^ exponent) : RoundsTo mantissa exponent value := by
  have unit : (0 : ℚ) < 2 ^ exponent := by positivity
  rw [← lt_div_iff₀ unit] at lower
  rw [← div_lt_iff₀ unit] at upper
  exact ⟨lower.le, upper.le, fun _ => ⟨lower.ne, upper.ne⟩⟩

/-- The number itself is rounded to its mantissa and its exponent. -/
theorem RoundsTo.self (mantissa : Nat) (exponent : Int) :
    RoundsTo mantissa exponent (mantissa * 2 ^ exponent) := by
  have unit : (0 : ℚ) < 2 ^ exponent := by positivity
  refine .of_between (mul_lt_mul_of_pos_right ?_ unit) (mul_lt_mul_of_pos_right ?_ unit)
  · exact sub_lt_self _ (quartersBelow_bounds mantissa exponent).1
  · linarith

/-- All numbers of the interval are below the power of two that 53 bits do not reach. -/
theorem RoundsTo.lt_zpow {mantissa : Nat} {exponent : Int} {value : ℚ}
    (short : mantissa < 2 ^ 53) (rounds : RoundsTo mantissa exponent value) :
    value < 2 ^ (exponent + 53) := by
  have unit : (0 : ℚ) < 2 ^ exponent := by positivity
  have mantissaShort : (mantissa : ℚ) + 1 ≤ 2 ^ 53 := by exact_mod_cast short
  calc value ≤ (mantissa + 1 / 2) * 2 ^ exponent := (div_le_iff₀ unit).mp rounds.upper
    _ < 2 ^ 53 * 2 ^ exponent := by
        refine mul_lt_mul_of_pos_right ?_ unit
        linarith
    _ = 2 ^ (exponent + 53) := by
        rw [add_comm, zpow_add₀ (by norm_num)]
        norm_num

/-- A number below the least mantissa with a leading bit that is rounded to a mantissa with
a leading bit is rounded to this one, and is at most a quarter of a place below. -/
theorem RoundsTo.below_power {mantissa : Nat} {exponent : Int} {value : ℚ}
    (notLeast : -1074 < exponent) (full : 2 ^ 52 ≤ mantissa)
    (rounds : RoundsTo mantissa exponent value) (small : value / 2 ^ exponent < 2 ^ 52) :
    mantissa = 2 ^ 52 ∧ (2 : ℚ) ^ 52 - 1 / 4 ≤ value / 2 ^ exponent := by
  have lower := rounds.lower
  rcases quartersBelow_cases mantissa exponent with ⟨one, rfl, _⟩ | ⟨two, notPower⟩
  · rw [one] at lower
    push_cast at lower
    exact ⟨rfl, lower⟩
  · rw [two] at lower
    push_cast at lower
    have bound : (mantissa : ℚ) < 2 ^ 52 + 1 := by linarith
    have boundNat : mantissa < 2 ^ 52 + 1 := by exact_mod_cast bound
    exact absurd ⟨by omega, notLeast⟩ notPower

/-- A quotient is rounded to a natural number that is near to it, told by rational numbers. -/
theorem roundHalfEven_of_near {numerator denominator nearest : Nat} (positive : 0 < denominator)
    (lower : (nearest : ℚ) - 1 / 2 ≤ numerator / denominator)
    (upper : (numerator : ℚ) / denominator ≤ nearest + 1 / 2)
    (apart : nearest % 2 = 1 → (nearest : ℚ) - 1 / 2 ≠ numerator / denominator ∧
      (numerator : ℚ) / denominator ≠ nearest + 1 / 2) :
    roundHalfEven numerator denominator = nearest := by
  have denominatorPositive : (0 : ℚ) < denominator := by exact_mod_cast positive
  rw [le_div_iff₀ denominatorPositive] at lower
  rw [div_le_iff₀ denominatorPositive] at upper
  refine roundHalfEven_eq ?_ ?_ ?_ positive
  · have scaled : (2 : ℚ) * nearest * denominator ≤ 2 * numerator + denominator := by linarith
    exact_mod_cast scaled
  · have scaled : (2 : ℚ) * numerator ≤ (2 * nearest + 1) * denominator := by linarith
    exact_mod_cast scaled
  · intro odd
    obtain ⟨notLower, notUpper⟩ := apart odd
    constructor
    · intro same
      apply notLower
      have scaled : (2 : ℚ) * nearest * denominator = 2 * numerator + denominator := by
        exact_mod_cast same
      rw [eq_div_iff denominatorPositive.ne']
      linarith
    · intro same
      apply notUpper
      have scaled : (2 : ℚ) * numerator = (2 * nearest + 1) * denominator := by
        exact_mod_cast same
      rw [div_eq_iff denominatorPositive.ne']
      linarith

/-- The encoding that is found, with the exponent that fits. -/
theorem nearestBits_eq {numerator : Nat} (some : 0 < numerator) (denominator : Nat) :
    let exponent := max (fittingExponent numerator denominator) (-1074)
    let quotient := overTwo numerator denominator exponent
    nearestBits numerator denominator =
      min ((exponent + 1074).toNat * 2 ^ 52 + roundHalfEven quotient.1 quotient.2)
        infinityBits := by
  intro exponent quotient
  rw [nearestBits, if_neg (by omega)]
  rfl

/-- A quotient that is rounded to a mantissa in the last place is rounded to it. -/
theorem RoundsTo.roundHalfEven {numerator denominator mantissa : Nat} {exponent : Int}
    (positive : 0 < denominator)
    (rounds : RoundsTo mantissa exponent ((numerator : ℚ) / denominator)) :
    let quotient := overTwo numerator denominator exponent
    Decimal.roundHalfEven quotient.1 quotient.2 = mantissa := by
  intro quotient
  obtain ⟨quotientPositive, same⟩ := overTwo_spec numerator positive exponent
  have lower := rounds.lower
  have upper := rounds.upper
  have apart := rounds.apart
  rw [← same] at lower upper apart
  refine roundHalfEven_of_near quotientPositive ?_ upper ?_
  · have quarters := (quartersBelow_bounds mantissa exponent).2
    linarith
  · intro odd
    obtain ⟨notLower, notUpper⟩ := apart odd
    refine ⟨?_, notUpper⟩
    rcases quartersBelow_cases mantissa exponent with ⟨_, even, _⟩ | ⟨quarters, _⟩
    · omega
    · rw [quarters] at notLower
      norm_num at notLower
      exact notLower

/-- What is rounded to the least mantissa with a leading bit from below is rounded to
the end of the next smaller mantissas. -/
theorem roundHalfEven_finer {numerator denominator : Nat} {exponent : Int}
    (positive : 0 < denominator)
    (lower : (2 : ℚ) ^ 52 - 1 / 4 ≤ (numerator : ℚ) / denominator / 2 ^ exponent)
    (upper : (numerator : ℚ) / denominator / 2 ^ exponent < 2 ^ 52) :
    let quotient := overTwo numerator denominator (exponent - 1)
    Decimal.roundHalfEven quotient.1 quotient.2 = 2 ^ 53 := by
  intro quotient
  obtain ⟨quotientPositive, same⟩ := overTwo_spec numerator positive (exponent - 1)
  have double : (numerator : ℚ) / denominator / 2 ^ (exponent - 1) =
      2 * ((numerator : ℚ) / denominator / 2 ^ exponent) := by
    rw [zpow_sub_one₀ (by norm_num)]
    field_simp
  rw [double] at same
  refine roundHalfEven_of_near quotientPositive ?_ ?_ (by norm_num)
  · rw [same]
    push_cast
    linarith
  · rw [same]
    push_cast
    linarith

/-- The encoding of the nearest binary fraction is that of the mantissa and the exponent
that the number is rounded to. -/
theorem nearestBits_eq_encodingOf {numerator denominator mantissa : Nat} {exponent : Int}
    (some : 0 < numerator) (positive : 0 < denominator) (rounded : IsRounded mantissa exponent)
    (rounds : RoundsTo mantissa exponent ((numerator : ℚ) / denominator)) :
    nearestBits numerator denominator = encodingOf mantissa exponent := by
  obtain ⟨short, least, full⟩ := rounded
  obtain ⟨atLeast, below⟩ := fittingExponent_spec some positive
  have two : (1 : ℚ) < 2 := by norm_num
  have unit : (0 : ℚ) < 2 ^ exponent := by positivity
  have power (places : ℤ) : (2 : ℚ) ^ (exponent + places) = 2 ^ places * 2 ^ exponent := by
    rw [add_comm, zpow_add₀ (by norm_num)]
  have notAbove : fittingExponent numerator denominator ≤ exponent := by
    have gap := (zpow_lt_zpow_iff_right₀ two).mp (atLeast.trans_lt (rounds.lt_zpow short))
    omega
  rw [nearestBits_eq some]
  generalize fittingExponent numerator denominator = fitting at *
  by_cases same : max fitting (-1074) = exponent
  · rw [same, rounds.roundHalfEven positive, encodingOf]
  · -- Only just below a power of two can the exponent that is found be smaller.
    have smaller : fitting < exponent ∧ -1074 < exponent := by omega
    have quotientSmall : (numerator : ℚ) / denominator / 2 ^ exponent < 2 ^ 52 := by
      rw [div_lt_iff₀ unit]
      refine below.trans_le ?_
      have step : (2 : ℚ) ^ (fitting + 53) ≤ 2 ^ (exponent + 52) :=
        zpow_le_zpow_right₀ two.le (by omega)
      rwa [power] at step
    obtain ⟨rfl, quotientLarge⟩ := rounds.below_power smaller.2 (by omega) quotientSmall
    obtain rfl : fitting = exponent - 1 := by
      have large : (2 : ℚ) ^ (exponent + 51) < 2 ^ (fitting + 53) := by
        refine lt_of_lt_of_le ?_ below.le
        rw [power]
        rw [le_div_iff₀ unit] at quotientLarge
        refine lt_of_lt_of_le (mul_lt_mul_of_pos_right ?_ unit) quotientLarge
        norm_num
      have gap := (zpow_lt_zpow_iff_right₀ two).mp large
      omega
    have finer : max (exponent - 1) (-1074) = exponent - 1 := by omega
    rw [finer, roundHalfEven_finer positive quotientLarge quotientSmall, encodingOf]
    omega

/-- The encoding of a nearest binary fraction that is finite. -/
theorem nearestBits_of_roundsTo {numerator denominator mantissa : Nat} {exponent : Int}
    (some : 0 < numerator) (positive : 0 < denominator) (encoded : IsEncoded mantissa exponent)
    (rounds : RoundsTo mantissa exponent ((numerator : ℚ) / denominator)) :
    nearestBits numerator denominator = (exponent + 1074).toNat * 2 ^ 52 + mantissa := by
  rw [nearestBits_eq_encodingOf some positive encoded.isRounded rounds,
    encodingOf_of_isEncoded encoded]

end MetricQuery.Decimal
