import MetricQuery.Proofs.Decimal.Arithmetic
import MetricQuery.Proofs.Decimal.Shortest

/-!
# Numbers nearest to a value

A finite number holds a value exactly, and it is nearest to all values that are rounded to
it. Arithmetic on two numbers gives the number nearest to what the values that they hold
give, as long as this is not too large, and only one number is nearest to a positive value.

A number that is nearest to a value may hold another one. Unless the value is so small that
bits of the mantissa are missing, the two differ by no more than the last bit.

What is too large begins halfway beyond the largest number. A quotient does not get there if
it is not larger than what is divided, and a product of two rounded factors does not either
if the product of the factors themselves is rounded to one of the numbers but the largest.
Powers of ten fit as long as they have no more than 308 zeros, and 22 of these zeros are held
exactly.
-/

namespace MetricQuery.Decimal

open Float.Model

variable {x y : Float} {mantissa numerator denominator : Nat} {exponent : Int} {value other : ℚ}

/-- Every positive fraction is rounded to some mantissa and exponent. -/
theorem exists_rounded (some : 0 < numerator) (positive : 0 < denominator) :
    ∃ nearest place, IsRounded nearest place ∧
      RoundsTo nearest place ((numerator : ℚ) / denominator) := by
  obtain ⟨nearest, place, rounded, rounds, _⟩ := roundWithAccuracy_divCore false some positive 0 0
  rw [zpow_zero, mul_one, mul_one] at rounds
  exact ⟨nearest, place, rounded, rounds⟩

/-- Whether a number is finite, not negative, and nearest to a value. -/
def IsNearest (x : Float) (value : ℚ) : Prop :=
  ∃ mantissa exponent, parts x = .finite false mantissa exponent ∧
    RoundsTo mantissa exponent value

/-- The value from which on numbers are rounded to infinity, halfway beyond the largest one. -/
def limit : ℚ := (2 ^ 52 - 1 / 4) * 2 ^ (972 : ℤ)

/-- What is rounded to an exponent that is too large is not below that value. -/
theorem RoundsTo.large (rounded : IsRounded mantissa exponent)
    (rounds : RoundsTo mantissa exponent value) (large : 971 < exponent) :
    limit ≤ value := by
  obtain ⟨short, least, full⟩ := rounded
  have leading : ((2 ^ 52 : Nat) : ℚ) ≤ mantissa := by
    exact_mod_cast full.resolve_left (by omega)
  have unit : (0 : ℚ) < 2 ^ exponent := by positivity
  have lower := rounds.lower
  have quarter : (2 : ℚ) ^ 52 - 1 / 4 ≤ mantissa - quartersBelow mantissa exponent / 4 := by
    rcases quartersBelow_cases mantissa exponent with ⟨one, power, _⟩ | ⟨two, notPower⟩
    · rw [one, power]
      norm_num
    · have above : 2 ^ 52 + 1 ≤ mantissa := by omega
      have aboveCast : ((2 ^ 52 + 1 : Nat) : ℚ) ≤ mantissa := by exact_mod_cast above
      rw [two]
      push_cast at aboveCast ⊢
      linarith
  calc limit ≤ (2 ^ 52 - 1 / 4) * 2 ^ exponent := by
        refine mul_le_mul_of_nonneg_left ?_ (by norm_num)
        exact zpow_le_zpow_right₀ (by norm_num) (by omega)
    _ ≤ value / 2 ^ exponent * 2 ^ exponent := by
        refine mul_le_mul_of_nonneg_right (quarter.trans lower) unit.le
    _ = value := div_mul_cancel₀ _ unit.ne'

/-- What is rounded to a number that is not one of the five largest may be made larger by two
last bits without being too large. -/
theorem RoundsTo.twice_lt_limit (encoded : IsEncoded mantissa exponent)
    (rounds : RoundsTo mantissa exponent value)
    (notLargest : exponent = 971 → mantissa + 5 < 2 ^ 53) :
    value * (1 + 1 / 2 ^ 52) ^ 2 < limit := by
  have unit : (0 : ℚ) < 2 ^ exponent := by positivity
  have upper := (div_le_iff₀ unit).mp rounds.upper
  have room : ((mantissa : ℚ) + 1 / 2) * (1 + 1 / 2 ^ 52) ^ 2 * 2 ^ exponent < limit := by
    rcases encoded.most.lt_or_eq with below | rfl
    · have short : (mantissa : ℚ) ≤ 2 ^ 53 := by exact_mod_cast encoded.short.le
      calc ((mantissa : ℚ) + 1 / 2) * (1 + 1 / 2 ^ 52) ^ 2 * 2 ^ exponent
          ≤ (2 ^ 53 + 1 / 2) * (1 + 1 / 2 ^ 52) ^ 2 * 2 ^ (970 : ℤ) := by
            have power : (2 : ℚ) ^ exponent ≤ 2 ^ (970 : ℤ) :=
              zpow_le_zpow_right₀ (by norm_num) (by omega)
            gcongr
        _ < (2 ^ 52 - 1 / 4) * 2 ^ (2 : ℤ) * 2 ^ (970 : ℤ) := by
            refine mul_lt_mul_of_pos_right ?_ (by positivity)
            norm_num
        _ = limit := by
            rw [limit, mul_assoc, ← zpow_add₀ (by norm_num)]
            rfl
    · have short : (mantissa : ℚ) + 5 + 1 ≤ 2 ^ 53 := by exact_mod_cast notLargest rfl
      calc ((mantissa : ℚ) + 1 / 2) * (1 + 1 / 2 ^ 52) ^ 2 * 2 ^ (971 : ℤ)
          ≤ (2 ^ 53 - 5 - 1 / 2) * (1 + 1 / 2 ^ 52) ^ 2 * 2 ^ (971 : ℤ) := by
            gcongr
            linarith
        _ < (2 ^ 52 - 1 / 4) * 2 ^ (1 : ℤ) * 2 ^ (971 : ℤ) := by
            refine mul_lt_mul_of_pos_right ?_ (by positivity)
            norm_num
        _ = limit := by
            rw [limit, mul_assoc, ← zpow_add₀ (by norm_num)]
            rfl
  calc value * (1 + 1 / 2 ^ 52) ^ 2
      ≤ (mantissa + 1 / 2) * 2 ^ exponent * (1 + 1 / 2 ^ 52) ^ 2 :=
        mul_le_mul_of_nonneg_right upper (by positivity)
    _ = (mantissa + 1 / 2) * (1 + 1 / 2 ^ 52) ^ 2 * 2 ^ exponent := by ring
    _ < limit := room

/-- The number nearest to a fraction is finite if the fraction is not too large. -/
theorem isNearest_assemble (some : 0 < numerator) (positive : 0 < denominator)
    (bound : (numerator : ℚ) / denominator < limit) :
    IsNearest (assemble false (nearestBits numerator denominator))
      ((numerator : ℚ) / denominator) := by
  obtain ⟨nearest, place, rounded, rounds⟩ := exists_rounded some positive
  have most : place ≤ 971 := by
    by_contra large
    exact absurd (rounds.large rounded (not_le.mp large)) (not_le.mpr bound)
  have encoded : IsEncoded nearest place :=
    ⟨rounded.short, rounded.least, most, rounded.full⟩
  rw [nearestBits_eq_encodingOf some positive rounded rounds]
  exact ⟨nearest, place, parts_assemble false encoded, rounds⟩

/-- A positive rational number is a fraction of natural numbers. -/
theorem exists_fraction (positive : 0 < value) :
    ∃ numerator denominator : Nat, 0 < numerator ∧ 0 < denominator ∧
      (numerator : ℚ) / denominator = value := by
  refine ⟨value.num.toNat, value.den, ?_, value.den_pos, ?_⟩
  · have sign := Rat.num_pos.mpr positive
    omega
  · have whole : ((value.num.toNat : ℤ) : ℚ) = value.num :=
      congrArg _ (Int.toNat_of_nonneg (Rat.num_nonneg.mpr positive.le))
    rw [← Int.cast_natCast, whole, Rat.num_div_den]

/-- Only one number is nearest to a positive value. -/
theorem IsNearest.unique (nearest : IsNearest x value) (nearest' : IsNearest y value)
    (positive : 0 < value) : x = y := by
  obtain ⟨mantissa, exponent, finite, rounds⟩ := nearest
  obtain ⟨mantissa', exponent', finite', rounds'⟩ := nearest'
  obtain ⟨numerator, denominator, some, unit, fraction⟩ := exists_fraction positive
  rw [← fraction] at rounds rounds'
  have encoding := nearestBits_of_roundsTo some unit (isEncoded_of_finite finite) rounds
  have encoding' := nearestBits_of_roundsTo some unit (isEncoded_of_finite finite') rounds'
  rw [← assemble_of_finite finite, ← assemble_of_finite finite', ← encoding, ← encoding']

/-- A number that is nearest to a value has the mantissa and the exponent that the value is
rounded to. -/
theorem IsNearest.parts_eq (nearest : IsNearest x value) (encoded : IsEncoded mantissa exponent)
    (rounds : RoundsTo mantissa exponent value) (positive : 0 < value) :
    parts x = .finite false mantissa exponent := by
  have finite := parts_assemble false encoded
  have other : IsNearest (assemble false (encodingOf mantissa exponent)) value :=
    ⟨mantissa, exponent, finite, rounds⟩
  rwa [nearest.unique other positive]

/-! ## Values that numbers hold -/

/-- Whether a number is finite, not negative, and holds a value exactly. -/
def Holds (x : Float) (value : ℚ) : Prop :=
  ∃ mantissa exponent, parts x = .finite false mantissa exponent ∧
    value = mantissa * 2 ^ exponent

/-- A positive value has a positive mantissa. -/
theorem mantissa_pos (positive : 0 < value) (same : value = mantissa * 2 ^ exponent) :
    0 < mantissa := by
  rw [Nat.pos_iff_ne_zero]
  rintro rfl
  simp [same] at positive

/-- A number that is nearest to a value holds one that is not far from it, unless bits of its
mantissa are missing. -/
theorem IsNearest.holds (nearest : IsNearest x value) (normal : 2 ^ (-1022 : ℤ) ≤ value) :
    ∃ held, Holds x held ∧ value / 2 ≤ held ∧ held ≤ value * (1 + 1 / 2 ^ 52) := by
  obtain ⟨mantissa, exponent, finite, rounds⟩ := nearest
  have encoded := isEncoded_of_finite finite
  have unit : (0 : ℚ) < 2 ^ exponent := by positivity
  have upper := (div_le_iff₀ unit).mp rounds.upper
  have lower := (le_div_iff₀ unit).mp rounds.lower
  have leading : 2 ^ 52 ≤ mantissa := by
    by_contra small
    have least : exponent = -1074 := encoded.full.resolve_right small
    have below : (mantissa : ℚ) + 1 ≤ 2 ^ 52 := by
      exact_mod_cast Nat.lt_of_not_le small
    have tiny : value < 2 ^ (-1022 : ℤ) := by
      calc value ≤ (mantissa + 1 / 2) * 2 ^ exponent := upper
        _ < 2 ^ 52 * 2 ^ exponent := mul_lt_mul_of_pos_right (by linarith) unit
        _ = 2 ^ (-1022 : ℤ) := by
            rw [least, ← zpow_natCast, ← zpow_add₀ (by norm_num)]
            norm_num
    exact absurd normal (not_le.mpr tiny)
  have leadingCast : (2 : ℚ) ^ 52 ≤ mantissa := by exact_mod_cast leading
  have quarters := (quartersBelow_bounds mantissa exponent).2
  refine ⟨mantissa * 2 ^ exponent, ⟨mantissa, exponent, finite, rfl⟩, ?_, ?_⟩
  · have double : ((mantissa : ℚ) + 1 / 2) * 2 ^ exponent ≤ 2 * (mantissa * 2 ^ exponent) := by
      rw [← mul_assoc]
      exact mul_le_mul_of_nonneg_right (by linarith) unit.le
    linarith
  · have close : (mantissa : ℚ) ≤
        (mantissa - quartersBelow mantissa exponent / 4) * (1 + 1 / 2 ^ 52) := by
      nlinarith
    calc (mantissa : ℚ) * 2 ^ exponent
        ≤ (mantissa - quartersBelow mantissa exponent / 4) * (1 + 1 / 2 ^ 52) * 2 ^ exponent :=
          mul_le_mul_of_nonneg_right close unit.le
      _ = (mantissa - quartersBelow mantissa exponent / 4) * 2 ^ exponent * (1 + 1 / 2 ^ 52) := by
          ring
      _ ≤ value * (1 + 1 / 2 ^ 52) := mul_le_mul_of_nonneg_right lower (by positivity)

/-- The product of two numbers is nearest to the product of the values that they hold. -/
theorem Holds.mul (left : Holds x value) (right : Holds y other) (positive : 0 < value)
    (positive' : 0 < other) (bound : value * other < limit) :
    IsNearest (x * y) (value * other) := by
  obtain ⟨mantissa, exponent, finite, same⟩ := left
  obtain ⟨mantissa', exponent', finite', same'⟩ := right
  obtain ⟨numerator, denominator, some, unit, fraction⟩ :=
    exists_fraction (mul_pos positive positive')
  rw [← fraction] at bound ⊢
  rw [mul_eq_assemble finite finite' (mantissa_pos positive same) (mantissa_pos positive' same')
    some unit (by rw [fraction, same, same'])]
  exact isNearest_assemble some unit bound

/-- The quotient of two numbers is nearest to the quotient of the values that they hold. -/
theorem Holds.div (left : Holds x value) (right : Holds y other) (positive : 0 < value)
    (positive' : 0 < other) (bound : value / other < limit) :
    IsNearest (x / y) (value / other) := by
  obtain ⟨mantissa, exponent, finite, same⟩ := left
  obtain ⟨mantissa', exponent', finite', same'⟩ := right
  obtain ⟨numerator, denominator, some, unit, fraction⟩ :=
    exists_fraction (div_pos positive positive')
  rw [← fraction] at bound ⊢
  rw [div_eq_assemble finite finite' (mantissa_pos positive same) (mantissa_pos positive' same')
    some unit (by rw [fraction, same, same'])]
  exact isNearest_assemble some unit bound

/-- Only zero holds the value zero. -/
theorem Holds.eq_zero (holds : Holds x 0) : x = assemble false 0 := by
  obtain ⟨mantissa, exponent, finite, same⟩ := holds
  have unit : (2 : ℚ) ^ exponent ≠ 0 := by positivity
  have none : mantissa = 0 := by simpa [unit] using same
  subst none
  have least : exponent = -1074 := (isEncoded_of_finite finite).full.resolve_right (by decide)
  subst least
  exact (assemble_of_finite finite).symm

/-- The value that a number holds is not negative, and not too large. -/
theorem Holds.bounds (holds : Holds x value) : 0 ≤ value ∧ value < limit := by
  obtain ⟨mantissa, exponent, finite, rfl⟩ := holds
  have encoded := isEncoded_of_finite finite
  have short : (mantissa : ℚ) ≤ 2 ^ 53 - 1 := by
    have below : (mantissa : ℚ) + 1 ≤ 2 ^ 53 := by exact_mod_cast encoded.short
    linarith
  refine ⟨by positivity, ?_⟩
  calc (mantissa : ℚ) * 2 ^ exponent ≤ (2 ^ 53 - 1) * 2 ^ (971 : ℤ) := by
        refine mul_le_mul short ?_ (by positivity) (by norm_num)
        exact zpow_le_zpow_right₀ (by norm_num) encoded.most
    _ < limit := by
        have places : (972 : ℤ) = 971 + 1 := rfl
        have unit : (0 : ℚ) < 2 ^ (971 : ℤ) := by positivity
        rw [limit, places, zpow_add_one₀ (by norm_num)]
        generalize (2 : ℚ) ^ (971 : ℤ) = unit at *
        linarith

/-- A number that is nearest to a value holds one. -/
theorem IsNearest.exists_holds (nearest : IsNearest x value) : ∃ held, Holds x held := by
  obtain ⟨mantissa, exponent, finite, _⟩ := nearest
  exact ⟨_, mantissa, exponent, finite, rfl⟩

/-- A number divided by one that is not less than one is finite. -/
theorem Holds.exists_div (left : Holds x value) (right : Holds y other) (one : 1 ≤ other) :
    ∃ held, Holds (x / y) held := by
  obtain ⟨sign, bound⟩ := left.bounds
  have positive : 0 < other := by linarith
  rcases sign.eq_or_lt with zero | some
  · subst zero
    obtain ⟨mantissa, exponent, finite, same⟩ := right
    rw [left.eq_zero, zero_div finite (mantissa_pos positive same)]
    exact ⟨0, 0, -1074, by decide, by norm_num⟩
  · refine (left.div right some positive ?_).exists_holds
    exact (div_le_self sign one).trans_lt bound

/-! ## Natural numbers -/

/-- The number that is made of a natural number is nearest to it. -/
theorem isNearest_ofNat {n : Nat} (some : 0 < n) (bound : (n : ℚ) < limit) :
    IsNearest (ofNat n) n := by
  have one : (n : ℚ) / (1 : Nat) = n := by simp
  have nearest := isNearest_assemble some Nat.one_pos (one.trans_lt bound)
  rwa [one] at nearest

/-- A natural number of at most 53 bits times a power of two is held exactly. -/
theorem holds_ofNat {n places : Nat} (some : 0 < n) (short : n ≤ 2 ^ 53) (few : places ≤ 900) :
    Holds (ofNat (n * 2 ^ places)) ((n * 2 ^ places : Nat) : ℚ) := by
  -- The mantissa is the number with as many zeros behind it as 53 bits leave room for.
  obtain ⟨mantissa, exponent, encoded, same⟩ : ∃ mantissa exponent,
      IsEncoded mantissa exponent ∧ ((n * 2 ^ places : Nat) : ℚ) = mantissa * 2 ^ exponent := by
    by_cases full : n = 2 ^ 53
    · refine ⟨2 ^ 52, places + 1, ⟨by decide, by omega, by omega, .inr (le_refl _)⟩, ?_⟩
      rw [full, zpow_add₀ (by norm_num)]
      push_cast
      rw [zpow_natCast]
      ring
    · have bits : n.log2 < 53 := (Nat.log2_lt some.ne').mpr (by omega)
      obtain ⟨zeros, room⟩ : ∃ zeros, n.log2 + zeros = 52 := ⟨52 - n.log2, by omega⟩
      have above : n < 2 ^ (n.log2 + 1) := Nat.lt_log2_self
      have below : 2 ^ n.log2 ≤ n := Nat.log2_self_le some.ne'
      refine ⟨n * 2 ^ zeros, places - zeros, ⟨?_, by omega, by omega, .inr ?_⟩, ?_⟩
      · calc n * 2 ^ zeros < 2 ^ (n.log2 + 1) * 2 ^ zeros :=
              Nat.mul_lt_mul_of_pos_right above (Nat.two_pow_pos zeros)
          _ = 2 ^ 53 := by
              rw [← pow_add]
              congr 1
              omega
      · calc 2 ^ 52 = 2 ^ n.log2 * 2 ^ zeros := by rw [← pow_add, room]
          _ ≤ n * 2 ^ zeros := Nat.mul_le_mul_right _ below
      · rw [zpow_sub₀ (by norm_num), zpow_natCast, zpow_natCast]
        push_cast
        field_simp
  have positive : 0 < n * 2 ^ places := Nat.mul_pos some (Nat.two_pow_pos places)
  refine ⟨mantissa, exponent, ?_, same⟩
  have rounds : RoundsTo mantissa exponent (((n * 2 ^ places : Nat) : ℚ) / (1 : Nat)) := by
    rw [Nat.cast_one, div_one, same]
    exact .self mantissa exponent
  rw [ofNat, nearestBits_eq_encodingOf positive Nat.one_pos encoded.isRounded rounds]
  exact parts_assemble false encoded

/-- A power of ten with at most 22 zeros is held exactly. -/
theorem holds_tenTo {power : Nat} (few : power ≤ 22) :
    Holds (ofNat (tenTo power)) (10 ^ (power : ℤ)) := by
  have short : fiveTo power ≤ 2 ^ 53 :=
    (Nat.pow_le_pow_right (by decide) few : 5 ^ power ≤ 5 ^ 22).trans (by decide)
  have some : 0 < fiveTo power := Nat.pow_pos (by decide)
  have held := holds_ofNat some short (few.trans (by decide) : power ≤ 900)
  have ten : fiveTo power * 2 ^ power = tenTo power := fiveTo_mul_twoTo power
  rwa [ten, cast_tenTo] at held

/-- The value from which on numbers are infinite as a natural number. -/
theorem limit_eq : limit = ((2 ^ 54 - 1) * twoTo 970 : Nat) := by
  have places : (972 : ℤ) = (970 : Nat) + 2 := rfl
  rw [limit, places, zpow_add₀ (by norm_num), Nat.cast_mul, cast_twoTo]
  generalize (2 : ℚ) ^ ((970 : Nat) : ℤ) = unit
  norm_num
  ring

/-- A power of ten with more zeros is not smaller. -/
theorem tenTo_le_tenTo {fewer more : Nat} (zeros : fewer ≤ more) : tenTo fewer ≤ tenTo more :=
  Nat.pow_le_pow_right (by decide) zeros

/-- A power of ten is not too large exactly if it has at most 308 zeros. -/
theorem ten_zpow_lt_limit {power : Nat} : (10 : ℚ) ^ (power : ℤ) < limit ↔ power ≤ 308 := by
  have fits : tenTo 308 < (2 ^ 54 - 1) * twoTo 970 := by decide +kernel
  have exceeds : (2 ^ 54 - 1) * twoTo 970 ≤ tenTo 309 := by decide +kernel
  rw [limit_eq, ← cast_tenTo, Nat.cast_lt]
  constructor
  · intro small
    by_contra many
    have grows : tenTo 309 ≤ tenTo power := tenTo_le_tenTo (by omega)
    omega
  · intro few
    have grows : tenTo power ≤ tenTo 308 := tenTo_le_tenTo few
    omega

/-- A power of ten with at most 308 zeros is rounded to a number that is hardly larger, and
not less than one. -/
theorem exists_holds_tenTo {power : Nat} (fits : power ≤ 308) :
    ∃ held, Holds (ofNat (tenTo power)) held ∧ 1 ≤ held ∧
      held ≤ 10 ^ (power : ℤ) * (1 + 1 / 2 ^ 52) := by
  have one : (1 : ℚ) ≤ 10 ^ (power : ℤ) := one_le_zpow₀ (by norm_num) (by omega)
  by_cases few : power ≤ 22
  · refine ⟨_, holds_tenTo few, one, ?_⟩
    exact le_mul_of_one_le_right (by positivity) (by norm_num)
  · have nearest := isNearest_ofNat (tenTo_pos power)
    rw [cast_tenTo] at nearest
    have normal : (2 : ℚ) ^ (-1022 : ℤ) ≤ 10 ^ (power : ℤ) :=
      (zpow_le_one_of_nonpos₀ (by norm_num) (by norm_num)).trans one
    have ten : (10 : ℚ) ^ (1 : ℤ) ≤ 10 ^ (power : ℤ) :=
      zpow_le_zpow_right₀ (by norm_num) (by omega)
    rw [zpow_one] at ten
    obtain ⟨held, holds, lower, upper⟩ := (nearest (ten_zpow_lt_limit.mpr fits)).holds normal
    exact ⟨held, holds, by linarith, upper⟩

end MetricQuery.Decimal
