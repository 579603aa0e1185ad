import MetricQuery.Json.Number
import MetricQuery.Proofs.Decimal.Nearest

/-!
# Significands times powers of ten

A significand that is read is rounded to the number nearest to it, and so is the power of
ten. If both are held exactly, nothing is rounded but their product or their quotient, so
the number nearest to the decimal is found. In all other cases the number that is found may
be another one, but it is finite: dividing makes a number no larger, and each of the three
roundings makes a product larger by no more than its last bit.
-/

namespace MetricQuery.Json

open Decimal (Digits Holds IsNearest ofNat tenTo cast_tenTo limit ten_zpow_lt_limit
  exists_holds_tenTo holds_ofNat holds_tenTo isNearest_ofNat)

variable {x : Float} {significand : Nat} {exponent : Int} {value : ℚ}

/-- Dividing powers of ten out of a finite number leaves a finite number. -/
theorem exists_divideOut (holds : Holds x value) (steps power : Nat) :
    ∃ held, Holds (divideOut steps x power) held := by
  induction steps generalizing x value power with
  | zero =>
    obtain ⟨ten, holdsTen, one, _⟩ := exists_holds_tenTo (Nat.min_le_right power 308)
    exact holds.exists_div holdsTen one
  | succ steps inductionHypothesis =>
    rw [divideOut]
    split
    · rename_i few
      obtain ⟨ten, holdsTen, one, _⟩ := exists_holds_tenTo few
      exact holds.exists_div holdsTen one
    · split
      · exact ⟨value, holds⟩
      · obtain ⟨ten, holdsTen, one, _⟩ := exists_holds_tenTo (Nat.le_refl 308)
        obtain ⟨quotient, holdsQuotient⟩ := holds.exists_div holdsTen one
        exact inductionHypothesis holdsQuotient (power - 308)

/-- A finite product is a number's value. -/
theorem scale_of_product (exponent : Nat) (few : exponent ≤ 308)
    (nearest : IsNearest (ofNat significand * ofNat (tenTo exponent)) value) :
    scale significand exponent = .ok (ofNat significand * ofNat (tenTo exponent)) := by
  obtain ⟨mantissa, place, finite, _⟩ := nearest
  have notBelow : ¬ (exponent : Int) < 0 := by omega
  have most : (exponent : Int) ≤ 308 := by omega
  simp [scale, notBelow, most, finite]

/-- A significand of 64 bits times a power of ten is finite, unless it is too large. -/
theorem scale_holds (some : 0 < significand) (word : significand ≤ Word.largest)
    (bound : 0 ≤ exponent → (significand : ℚ) * 10 ^ exponent * (1 + 1 / 2 ^ 52) ^ 2 < limit) :
    ∃ x held, scale significand exponent = .ok x ∧ Holds x held := by
  have one : (1 : ℚ) ≤ significand := by exact_mod_cast some
  have normal : (2 : ℚ) ^ (-1022 : ℤ) ≤ significand :=
    (zpow_le_one_of_nonpos₀ (by norm_num) (by norm_num)).trans one
  have below : (significand : ℚ) < limit := by
    have most : (significand : ℚ) ≤ 10 ^ ((20 : Nat) : ℤ) := by
      rw [← cast_tenTo]
      exact_mod_cast word.trans (by decide)
    exact most.trans_lt (ten_zpow_lt_limit.mpr (by decide))
  obtain ⟨held, holds, lower, upper⟩ := (isNearest_ofNat some below).holds normal
  by_cases sign : exponent < 0
  · obtain ⟨quotient, holdsQuotient⟩ := exists_divideOut holds 4 exponent.natAbs
    exact ⟨_, quotient, by simp [scale, sign], holdsQuotient⟩
  · obtain ⟨power, rfl⟩ := Int.eq_ofNat_of_zero_le (not_lt.mp sign)
    have product := bound (by omega)
    have unit : (0 : ℚ) < 10 ^ (power : ℤ) := by positivity
    have few : power ≤ 308 := by
      refine ten_zpow_lt_limit.mp (lt_of_le_of_lt ?_ product)
      rw [mul_comm (significand : ℚ), mul_assoc]
      exact le_mul_of_one_le_right unit.le (one_le_mul_of_one_le_of_one_le one (by norm_num))
    obtain ⟨heldTen, holdsTen, oneTen, upperTen⟩ := exists_holds_tenTo few
    have small : held * heldTen < limit := by
      refine lt_of_le_of_lt ?_ product
      calc held * heldTen
          ≤ significand * (1 + 1 / 2 ^ 52) * (10 ^ (power : ℤ) * (1 + 1 / 2 ^ 52)) :=
            mul_le_mul upper upperTen (by linarith) (by positivity)
        _ = significand * 10 ^ (power : ℤ) * (1 + 1 / 2 ^ 52) ^ 2 := by ring
    have nearest := holds.mul holdsTen (by linarith) (by linarith) small
    obtain ⟨result, holdsResult⟩ := nearest.exists_holds
    exact ⟨_, result, scale_of_product power few nearest, holdsResult⟩

/-- Whether a significand and a power of ten are both held exactly. -/
def IsShort (digits : Digits) : Prop := digits.value ≤ 2 ^ 53 ∧ digits.exponent.natAbs ≤ 22

instance (digits : Digits) : Decidable (IsShort digits) :=
  inferInstanceAs (Decidable (_ ∧ _))

/-- A short significand times a short power of ten is rounded only once. -/
theorem scale_of_isShort {digits : Digits} (some : 0 < digits.value) (short : IsShort digits) :
    ∃ x, scale digits.value digits.exponent = .ok x ∧ IsNearest x digits.toRat := by
  obtain ⟨value, exponent⟩ := digits
  obtain ⟨few, power⟩ := short
  dsimp only at *
  have holds := holds_ofNat some few (Nat.zero_le 900)
  rw [pow_zero, Nat.mul_one] at holds
  have positive : (0 : ℚ) < value := by exact_mod_cast some
  have below : (value : ℚ) ≤ 10 ^ ((16 : Nat) : ℤ) := by
    rw [← cast_tenTo]
    exact_mod_cast few.trans (by decide)
  rw [Digits.toRat]
  by_cases sign : exponent < 0
  · obtain ⟨places, rfl⟩ : ∃ places : Nat, exponent = -places := ⟨exponent.natAbs, by omega⟩
    have places_le : places ≤ 22 := by omega
    have one : (1 : ℚ) ≤ 10 ^ (places : ℤ) := one_le_zpow₀ (by norm_num) (by omega)
    have quotient : (value : ℚ) * 10 ^ (-(places : ℤ)) = value / 10 ^ (places : ℤ) := by
      rw [zpow_neg, div_eq_mul_inv]
    have small : (value : ℚ) / 10 ^ (places : ℤ) < limit :=
      (div_le_self positive.le one).trans_lt (below.trans_lt (ten_zpow_lt_limit.mpr (by decide)))
    refine ⟨_, ?_, quotient ▸ holds.div (holds_tenTo places_le) positive (by positivity) small⟩
    have down : 0 < places := by omega
    have once : places ≤ 308 := by omega
    simp [scale, down, divideOut, once]
  · obtain ⟨places, rfl⟩ := Int.eq_ofNat_of_zero_le (not_lt.mp sign)
    have places_le : places ≤ 22 := by omega
    have small : (value : ℚ) * 10 ^ (places : ℤ) < limit := by
      refine lt_of_le_of_lt ?_ (ten_zpow_lt_limit.mpr (by omega : 16 + places ≤ 308))
      rw [Nat.cast_add, zpow_add₀ (by norm_num)]
      exact mul_le_mul_of_nonneg_right below (by positivity)
    have nearest := holds.mul (holds_tenTo places_le) positive (by positivity) small
    exact ⟨_, scale_of_product places (by omega) nearest, nearest⟩

end MetricQuery.Json
