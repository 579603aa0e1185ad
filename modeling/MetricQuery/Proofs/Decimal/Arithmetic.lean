import MetricQuery.Proofs.Decimal.Rounding

/-!
# Products and quotients are rounded once

Arithmetic first finds a mantissa and an exponent for the exact result, with two more bits
for what lies behind the mantissa: whether it is at least a half of the last place, and
whether there is anything beside that half. Shifting the mantissa to the right keeps what
the bits say about the exact result. So rounding the shifted mantissa to the nearest one, a
half going to the even one, rounds the exact result, and a mantissa that is rounded up to
54 bits is a power of two, from which nothing is lost when it is shifted once more.

The main statements are that the product and the quotient of two positive finite numbers
have the encoding that is nearest to the product and the quotient of their values.
-/

namespace MetricQuery.Decimal

open Float.Model Float.Model.UnpackedFloat

/-! ## A mantissa and two more bits -/

/-- Whether a mantissa with two more bits stands for a number of its last places. -/
structure Represents (extended : ExtendedMantissa) (value : ℚ) : Prop where
  /-- The mantissa is the whole part. -/
  lower : extended.mantissa ≤ value
  /-- The rest is less than one. -/
  upper : value < extended.mantissa + 1
  /-- The first bit tells whether the rest is at least a half. -/
  half : extended.roundBit = true ↔ extended.mantissa + 1 / 2 ≤ value
  /-- The second bit tells whether there is a rest beside the half. -/
  beside : extended.stickyBit = true ↔
    value ≠ extended.mantissa ∧ value ≠ extended.mantissa + 1 / 2

variable {extended : ExtendedMantissa} {value : ℚ}

/-- A bit is set if the mantissa is not all. -/
theorem Represents.inexact_iff (represents : Represents extended value) :
    (extended.roundBit || extended.stickyBit) = true ↔ value ≠ extended.mantissa := by
  rw [Bool.or_eq_true, represents.half, represents.beside]
  constructor
  · rintro (atLeast | ⟨some, _⟩) whole
    · linarith
    · exact some whole
  · intro some
    by_cases exact : value = extended.mantissa + 1 / 2
    · exact .inl exact.ge
    · exact .inr ⟨some, exact⟩

/-- Shifting to the right by one place halves the number. -/
theorem Represents.shiftRightOne (represents : Represents extended value) :
    Represents extended.shiftRightOne (value / 2) := by
  have inexact := represents.inexact_iff
  obtain ⟨lower, upper, _, _⟩ := represents
  obtain ⟨mantissa, half, beside⟩ := extended
  have whole : ((2 * (mantissa / 2) + mantissa % 2 : Nat) : ℚ) = mantissa := by
    rw [Nat.div_add_mod]
  push_cast at whole
  simp only at lower upper inexact
  -- An odd mantissa leaves a half, and everything behind it is beside the half.
  rcases Nat.mod_two_eq_zero_or_one mantissa with even | odd
  · rw [even] at whole
    push_cast at whole
    refine ⟨?_, ?_, ?_, ?_⟩ <;> simp only [ExtendedMantissa.shiftRightOne]
    · linarith
    · linarith
    · simp only [even, bne_self_eq_false, Bool.false_eq_true, false_iff, not_le]
      linarith
    · rw [inexact]
      constructor
      · intro some
        exact ⟨fun same => some (by linarith), fun same => by linarith⟩
      · rintro ⟨some, _⟩ same
        exact some (by linarith)
  · rw [odd] at whole
    push_cast at whole
    refine ⟨?_, ?_, ?_, ?_⟩ <;> simp only [ExtendedMantissa.shiftRightOne]
    · linarith
    · linarith
    · simp only [odd, bne_iff_ne, ne_eq, one_ne_zero, not_false_eq_true, true_iff]
      linarith
    · rw [inexact]
      constructor
      · intro some
        exact ⟨fun same => by linarith, fun same => some (by linarith)⟩
      · rintro ⟨_, some⟩ same
        exact some (by linarith)

/-- Shifting to the right divides the number by a power of two, and the mantissa rounded down. -/
theorem Represents.shiftRight (represents : Represents extended value) (places : Nat) :
    Represents (extended >>> places) (value / 2 ^ places) ∧
      (extended >>> places).mantissa = extended.mantissa / 2 ^ places := by
  change Represents (places.repeat ExtendedMantissa.shiftRightOne extended) _ ∧
    (places.repeat ExtendedMantissa.shiftRightOne extended).mantissa = _
  induction places with
  | zero => exact ⟨by simpa [Nat.repeat] using represents, by simp [Nat.repeat]⟩
  | succ places inductionHypothesis =>
    obtain ⟨shifted, mantissa⟩ := inductionHypothesis
    rw [Nat.repeat, pow_succ, pow_succ, ← div_div]
    refine ⟨shifted.shiftRightOne, ?_⟩
    rw [ExtendedMantissa.shiftRightOne, mantissa, Nat.div_div_eq_div_mul]

/-- A mantissa alone stands for itself. -/
theorem represents_exact (mantissa : Nat) :
    Represents (.ofMantissaAndAccuracy mantissa .exact) mantissa where
  lower := le_refl _
  upper := lt_add_one _
  half := by simp [ExtendedMantissa.ofMantissaAndAccuracy]
  beside := by simp [ExtendedMantissa.ofMantissaAndAccuracy]

/-- A mantissa and the order of what lies behind it to a half stand for both together. -/
theorem represents_inexact (mantissa : Nat) {order : Ordering} {part : ℚ} (some : 0 < part)
    (below : part < 1)
    (orders : order = .lt ∧ part < 1 / 2 ∨ order = .eq ∧ part = 1 / 2 ∨
      order = .gt ∧ 1 / 2 < part) :
    Represents (.ofMantissaAndAccuracy mantissa (.inexact order)) (mantissa + part) := by
  rcases orders with ⟨rfl, underHalf⟩ | ⟨rfl, rfl⟩ | ⟨rfl, overHalf⟩
  · refine ⟨?_, ?_, ?_, ?_⟩ <;> simp only [ExtendedMantissa.ofMantissaAndAccuracy]
    · linarith
    · linarith
    · simp only [Bool.false_eq_true, false_iff, not_le]
      linarith
    · simp only [true_iff]
      exact ⟨by linarith, by linarith⟩
  · refine ⟨?_, ?_, ?_, ?_⟩ <;> simp only [ExtendedMantissa.ofMantissaAndAccuracy]
    · linarith
    · linarith
    · simp
    · simp
  · refine ⟨?_, ?_, ?_, ?_⟩ <;> simp only [ExtendedMantissa.ofMantissaAndAccuracy]
    · linarith
    · linarith
    · simp only [true_iff]
      linarith
    · simp only [true_iff]
      exact ⟨by linarith, by linarith⟩

/-- A quotient rounded down stands for the fraction, with what is left by the division. -/
theorem represents_fraction (numerator : Nat) {denominator : Nat} (positive : 0 < denominator) :
    Represents (.ofMantissaAndAccuracy (numerator / denominator)
      (accuracyOfFraction (numerator % denominator) denominator))
      ((numerator : ℚ) / denominator) := by
  have unit : (0 : ℚ) < denominator := by exact_mod_cast positive
  have bound : numerator % denominator < denominator := Nat.mod_lt _ positive
  have whole : ((denominator * (numerator / denominator) + numerator % denominator : Nat) : ℚ) =
      numerator := by
    rw [Nat.div_add_mod]
  push_cast at whole
  generalize numerator / denominator = quotient at *
  generalize numerator % denominator = rest at *
  have value : (numerator : ℚ) / denominator = quotient + rest / denominator := by
    rw [← whole]
    field_simp
  rw [value, accuracyOfFraction]
  split
  case isTrue none =>
    rw [none, Nat.cast_zero, zero_div, add_zero]
    exact represents_exact quotient
  case isFalse some =>
    have positiveRest : (0 : ℚ) < rest := by exact_mod_cast Nat.pos_of_ne_zero some
    have restBound : (rest : ℚ) < denominator := by exact_mod_cast bound
    refine represents_inexact quotient (by positivity) ((div_lt_one unit).mpr restBound) ?_
    rw [div_lt_iff₀ unit, div_eq_iff unit.ne', lt_div_iff₀ unit]
    cases order : compare (2 * rest) denominator with
    | lt =>
      have small : (2 * rest : ℚ) < denominator := by exact_mod_cast Nat.compare_eq_lt.mp order
      exact .inl ⟨rfl, by linarith⟩
    | eq =>
      have half : (2 * rest : ℚ) = denominator := by exact_mod_cast Nat.compare_eq_eq.mp order
      exact .inr (.inl ⟨rfl, by linarith⟩)
    | gt =>
      have large : (denominator : ℚ) < 2 * rest := by exact_mod_cast Nat.compare_eq_gt.mp order
      exact .inr (.inr ⟨rfl, by linarith⟩)

/-- Rounding takes the nearest natural number, and the even one of two that are equally near. -/
theorem Represents.roundedMantissa (represents : Represents extended value) :
    let nearest := extended.roundedMantissa
    (extended.mantissa ≤ nearest ∧ nearest ≤ extended.mantissa + 1) ∧
      ((nearest : ℚ) - 1 / 2 ≤ value ∧ value ≤ nearest + 1 / 2) ∧
        (nearest % 2 = 1 → (nearest : ℚ) - 1 / 2 ≠ value ∧ value ≠ nearest + 1 / 2) := by
  intro nearest
  have inexact := represents.inexact_iff
  obtain ⟨lower, upper, half, beside⟩ := represents
  obtain ⟨mantissa, roundBit, stickyBit⟩ := extended
  simp only at lower upper half beside inexact
  cases roundBit with
  | false =>
    have same : nearest = mantissa := by cases stickyBit <;> rfl
    have underHalf : value < mantissa + 1 / 2 := by simpa using half
    rw [same]
    refine ⟨⟨le_refl _, Nat.le_succ _⟩, ⟨by linarith, by linarith⟩, ?_⟩
    intro _
    exact ⟨by linarith, by linarith⟩
  | true =>
    have atLeastHalf : mantissa + 1 / 2 ≤ value := half.mp rfl
    cases stickyBit with
    | false =>
      have same : nearest = mantissa + mantissa % 2 := rfl
      have exact : value = mantissa + 1 / 2 := by
        by_contra other
        have some : value ≠ mantissa := inexact.mp rfl
        exact Bool.false_ne_true (beside.mpr ⟨some, other⟩)
      rcases Nat.mod_two_eq_zero_or_one mantissa with even | odd
      · rw [same, even, exact]
        push_cast
        refine ⟨⟨le_refl _, Nat.le_succ _⟩, ⟨by linarith, by linarith⟩, ?_⟩
        intro notEven
        omega
      · rw [same, odd, exact]
        push_cast
        refine ⟨⟨Nat.le_succ _, le_refl _⟩, ⟨by linarith, by linarith⟩, ?_⟩
        intro notEven
        omega
    | true =>
      have same : nearest = mantissa + 1 := rfl
      have notHalf : value ≠ mantissa + 1 / 2 := (beside.mp rfl).2
      have overHalf : mantissa + 1 / 2 < value := lt_of_le_of_ne atLeastHalf notHalf.symm
      rw [same]
      push_cast
      refine ⟨⟨Nat.le_succ _, le_refl _⟩, ⟨by linarith, by linarith⟩, ?_⟩
      intro _
      exact ⟨by linarith, by linarith⟩

/-! ## Rounding -/

/-- The exponent to which a mantissa is shifted: the one that leaves 53 bits, or the smallest. -/
def targetOf (mantissa : Nat) (exponent : Int) : Int :=
  max ((mantissa.log2 : Int) + 1 + exponent - 53) (-1074)

/-- Shifting a mantissa leaves 53 bits that stand for the same number. -/
theorem shiftToTargetExponent_spec {mantissa : Nat} {exponent : Int} {accuracy : Accuracy}
    (represents : Represents (.ofMantissaAndAccuracy mantissa accuracy) (value / 2 ^ exponent))
    (fits : exponent ≤ targetOf mantissa exponent) :
    let shifted := shiftToTargetExponent Format.binary64 mantissa exponent accuracy
    Represents shifted.1 (value / 2 ^ shifted.2) ∧ IsRounded shifted.1.mantissa shifted.2 := by
  intro shifted
  obtain ⟨places, gap⟩ : ∃ places : Nat, targetOf mantissa exponent = exponent + places :=
    ⟨(targetOf mantissa exponent - exponent).toNat, by omega⟩
  have same : shifted =
      (ExtendedMantissa.ofMantissaAndAccuracy mantissa accuracy >>> places, exponent + places) := by
    have count : (targetOf mantissa exponent - exponent).toNat = places := by omega
    rw [← count]
    rfl
  have own : (ExtendedMantissa.ofMantissaAndAccuracy mantissa accuracy).mantissa = mantissa := by
    rcases accuracy with _ | (_ | _ | _) <;> rfl
  obtain ⟨moved, left⟩ := represents.shiftRight places
  rw [own] at left
  rw [same]
  refine ⟨?_, ?_⟩
  · rw [zpow_add₀ (by norm_num), ← div_div, zpow_natCast]
    exact moved
  · rw [targetOf] at gap
    have short : mantissa / 2 ^ places < 2 ^ 53 := by
      rw [Nat.div_lt_iff_lt_mul (Nat.two_pow_pos places), ← pow_add]
      refine Nat.lt_log2_self.trans_le ?_
      exact Nat.pow_le_pow_right (by decide) (by omega)
    refine ⟨left ▸ short, by simp only; omega, ?_⟩
    by_cases least : exponent + (places : Int) = -1074
    · exact .inl least
    · -- Above the smallest exponent all 53 bits are used.
      have bits : mantissa.log2 = 52 + places := by omega
      have some : mantissa ≠ 0 := by
        rintro rfl
        simp at bits
        omega
      refine .inr ?_
      simp only [left]
      rw [Nat.le_div_iff_mul_le (Nat.two_pow_pos places), ← pow_add, ← bits]
      exact Nat.log2_self_le some

/-- A mantissa that was rounded up to 54 bits is shifted once more, and no other. -/
theorem shiftToTargetExponent_exact {mantissa : Nat} {exponent : Int}
    (short : mantissa ≤ 2 ^ 53) (least : -1074 ≤ exponent) :
    let shifted := shiftToTargetExponent Format.binary64 mantissa exponent .exact
    (shifted.1.mantissa, shifted.2) =
      if mantissa = 2 ^ 53 then (2 ^ 52, exponent + 1) else (mantissa, exponent) := by
  intro shifted
  have moved (places : Nat) (count : (targetOf mantissa exponent - exponent).toNat = places) :
      (shifted.1.mantissa, shifted.2) = (mantissa / 2 ^ places, exponent + places) := by
    have same : shifted =
        (ExtendedMantissa.ofMantissaAndAccuracy mantissa .exact >>> places, exponent + places) := by
      rw [← count]
      rfl
    rw [same, ((represents_exact mantissa).shiftRight places).2]
    rfl
  rw [targetOf] at moved
  split
  case isTrue full =>
    have bits : mantissa.log2 = 53 := by
      rw [full]
      exact Nat.log2_two_pow
    rw [moved 1 (by omega), full]
    rfl
  case isFalse other =>
    have bits : mantissa.log2 < 53 := by
      by_cases zero : mantissa = 0
      · rw [zero]
        decide
      · exact (Nat.log2_lt zero).mpr (by omega)
    rw [moved 0 (by omega)]
    simp

/-- A number that is rounded up to 54 bits is rounded to a power of two in the next place. -/
theorem roundsTo_of_carry {place : Int} (least : -1074 ≤ place)
    (lower : (2 : ℚ) ^ 53 - 1 / 2 ≤ value / 2 ^ place)
    (upper : value / 2 ^ place ≤ 2 ^ 53 + 1 / 2) : RoundsTo (2 ^ 52) (place + 1) value := by
  have half : value / 2 ^ (place + 1) = value / 2 ^ place / 2 := by
    rw [zpow_add_one₀ (by norm_num), div_div]
  have quarter : quartersBelow (2 ^ 52) (place + 1) = 1 := if_pos ⟨rfl, by omega⟩
  refine ⟨?_, ?_, ?_⟩
  · rw [half, quarter]
    push_cast
    linarith
  · rw [half]
    push_cast
    linarith
  · intro odd
    norm_num at odd

/-- A number that is near to a natural number of places is rounded to it, also just above a
power of two. -/
theorem roundsTo_of_near {nearest : Nat} {place : Int}
    (lower : (nearest : ℚ) - 1 / 2 ≤ value / 2 ^ place)
    (upper : value / 2 ^ place ≤ nearest + 1 / 2)
    (apart : nearest % 2 = 1 →
      (nearest : ℚ) - 1 / 2 ≠ value / 2 ^ place ∧ value / 2 ^ place ≠ nearest + 1 / 2)
    (power : nearest = 2 ^ 52 → -1074 < place → (nearest : ℚ) ≤ value / 2 ^ place) :
    RoundsTo nearest place value := by
  rcases quartersBelow_cases nearest place with ⟨one, isPower, above⟩ | ⟨two, _⟩
  · have notBelow := power isPower above
    refine ⟨?_, upper, ?_⟩
    · rw [one]
      push_cast
      linarith
    · intro odd
      omega
  · have half : ((2 : Nat) : ℚ) / 4 = 1 / 2 := by norm_num
    refine ⟨?_, upper, ?_⟩
    · rw [two, half]
      exact lower
    · rw [two, half]
      exact apart

/-- The exact result of an operation is rounded to the nearest number. -/
theorem roundWithAccuracy_spec (negative : Bool) {mantissa : Nat} {exponent : Int}
    {accuracy : Accuracy}
    (represents : Represents (.ofMantissaAndAccuracy mantissa accuracy) (value / 2 ^ exponent))
    (fits : exponent ≤ targetOf mantissa exponent) :
    ∃ nearest place, IsRounded nearest place ∧ RoundsTo nearest place value ∧
      roundWithAccuracy Format.binary64 (signOf negative) mantissa exponent accuracy =
        unpackedOf negative nearest place := by
  obtain ⟨stands, short, least, full⟩ := shiftToTargetExponent_spec represents fits
  generalize target : shiftToTargetExponent Format.binary64 mantissa exponent accuracy = shifted at *
  obtain ⟨extended, place⟩ := shifted
  simp only at stands short least full
  obtain ⟨⟨notBelow, notAbove⟩, ⟨lower, upper⟩, apart⟩ := stands.roundedMantissa
  have notLong : extended.roundedMantissa ≤ 2 ^ 53 := by omega
  have again := shiftToTargetExponent_exact notLong least
  have result : roundWithAccuracy Format.binary64 (signOf negative) mantissa exponent accuracy =
      unpackedOf negative
        (shiftToTargetExponent Format.binary64 extended.roundedMantissa place .exact).1.mantissa
        (shiftToTargetExponent Format.binary64 extended.roundedMantissa place .exact).2 := by
    rw [roundWithAccuracy, target]
    rfl
  by_cases carry : extended.roundedMantissa = 2 ^ 53
  · rw [if_pos carry, Prod.mk.injEq] at again
    rw [again.1, again.2] at result
    rw [carry] at lower upper
    push_cast at lower upper
    refine ⟨2 ^ 52, place + 1, ⟨by decide, by omega, .inr (le_refl _)⟩, ?_, result⟩
    exact roundsTo_of_carry least lower upper
  · rw [if_neg carry, Prod.mk.injEq] at again
    rw [again.1, again.2] at result
    refine ⟨extended.roundedMantissa, place, ⟨by omega, least, by omega⟩, ?_, result⟩
    refine roundsTo_of_near lower upper apart ?_
    -- Above the smallest exponent the mantissa was at least this power of two before.
    intro isPower above
    have before : 2 ^ 52 ≤ extended.mantissa := full.resolve_left (by omega)
    have beforeCast : ((2 ^ 52 : Nat) : ℚ) ≤ extended.mantissa := by exact_mod_cast before
    rw [isPower]
    exact beforeCast.trans stands.lower

/-! ## Products and quotients -/

variable {x y : Float} {mantissa mantissa' numerator denominator : Nat} {exponent exponent' : Int}

/-- A positive number for arithmetic. -/
theorem unpackedOf_of_pos (negative : Bool) (positive : 0 < mantissa) (exponent : Int) :
    unpackedOf negative mantissa exponent =
      .finite (signOf negative) mantissa exponent positive :=
  dif_neg positive.ne'

/-- What is rounded to the nearest number has its encoding. -/
theorem ofModel_pack_of_roundsTo {rounded : UnpackedFloat} (some : 0 < numerator)
    (positive : 0 < denominator)
    (rounds : ∃ nearest place, IsRounded nearest place ∧
      RoundsTo nearest place ((numerator : ℚ) / denominator) ∧
        rounded = unpackedOf false nearest place) :
    Float.ofModel (Float.Model.pack rounded) =
      assemble false (nearestBits numerator denominator) := by
  obtain ⟨nearest, place, isRounded, roundsTo, rfl⟩ := rounds
  rw [ofModel_pack false isRounded, nearestBits_eq_encodingOf some positive isRounded roundsTo]

/-- The product of two positive finite numbers is the number nearest to the product of
their values. -/
theorem mul_eq_assemble (finite : parts x = .finite false mantissa exponent)
    (finite' : parts y = .finite false mantissa' exponent')
    (positiveLeft : 0 < mantissa) (positiveRight : 0 < mantissa')
    (some : 0 < numerator) (positive : 0 < denominator)
    (value : (numerator : ℚ) / denominator =
      mantissa * 2 ^ exponent * (mantissa' * 2 ^ exponent')) :
    x * y = assemble false (nearestBits numerator denominator) := by
  have encoded := isEncoded_of_finite finite
  have encoded' := isEncoded_of_finite finite'
  change Float.ofModel (Float.Model.pack
    (UnpackedFloat.mul Format.binary64 x.toModel.unpack y.toModel.unpack)) = _
  refine ofModel_pack_of_roundsTo some positive ?_
  rw [unpack_of_finite finite, unpack_of_finite finite', unpackedOf_of_pos false positiveLeft,
    unpackedOf_of_pos false positiveRight]
  refine roundWithAccuracy_spec false ?_ ?_
  · have product : (numerator : ℚ) / denominator / 2 ^ (exponent + exponent') =
        (mantissa * mantissa' : Nat) := by
      rw [value, zpow_add₀ (by norm_num)]
      push_cast
      field_simp
    rw [product]
    exact represents_exact _
  · rw [targetOf]
    by_cases long : 2 ^ 52 ≤ mantissa * mantissa'
    · have bits := (Nat.le_log2 (Nat.mul_pos positiveLeft positiveRight).ne').mpr long
      omega
    · -- Only two numbers without a leading bit have a product of so few bits.
      have left : mantissa < 2 ^ 52 := by
        have grows := Nat.le_mul_of_pos_right mantissa positiveRight
        omega
      have right : mantissa' < 2 ^ 52 := by
        have grows := Nat.le_mul_of_pos_left mantissa' positiveLeft
        omega
      have smallest := encoded.full.resolve_right (by omega)
      have smallest' := encoded'.full.resolve_right (by omega)
      omega

/-- The exponent of a quotient before it is rounded: small enough for 53 bits. -/
def quotientExponent (mantissa : Nat) (exponent : Int) (mantissa' : Nat) (exponent' : Int) : Int :=
  min (exponent - exponent')
    (max (((mantissa.log2 : Int) + 1 + exponent) - (mantissa'.log2 + 1 + exponent') - 53) (-1074))

/-- The mantissas are divided after the first one was shifted to the left by so many places. -/
theorem divCore_eq (mantissa : Nat) (exponent : Int) (mantissa' : Nat) (exponent' : Int) :
    let place := quotientExponent mantissa exponent mantissa' exponent'
    let shifted := mantissa * 2 ^ (exponent - exponent' - place).toNat
    divCore Format.binary64 mantissa exponent mantissa' exponent' =
      (shifted / mantissa', place, accuracyOfFraction (shifted % mantissa') mantissa') := by
  intro place shifted
  have same : shifted = mantissa <<< (exponent - exponent' - place).toNat :=
    (Nat.shiftLeft_eq _ _).symm
  rw [same]
  rfl

/-- The quotient that is found before it is rounded has enough bits. -/
theorem quotientExponent_le (positiveLeft : 0 < mantissa) (positiveRight : 0 < mantissa')
    (exponent exponent' : Int) :
    let place := quotientExponent mantissa exponent mantissa' exponent'
    place ≤ targetOf (mantissa * 2 ^ (exponent - exponent' - place).toNat / mantissa') place := by
  intro place
  by_cases least : place ≤ -1074
  · rw [targetOf]
    omega
  · have room : place ≤ exponent - exponent' ∧
        place + 53 ≤ ((mantissa.log2 : Int) + exponent) - (mantissa'.log2 + exponent') := by
      have same : place = quotientExponent mantissa exponent mantissa' exponent' := rfl
      rw [quotientExponent] at same
      omega
    have long : 2 ^ 52 ≤ mantissa * 2 ^ (exponent - exponent' - place).toNat / mantissa' := by
      rw [Nat.le_div_iff_mul_le positiveRight]
      calc 2 ^ 52 * mantissa' ≤ 2 ^ 52 * 2 ^ (mantissa'.log2 + 1) :=
            Nat.mul_le_mul_left _ Nat.lt_log2_self.le
        _ = 2 ^ (52 + (mantissa'.log2 + 1)) := (pow_add _ _ _).symm
        _ ≤ 2 ^ (mantissa.log2 + (exponent - exponent' - place).toNat) :=
            Nat.pow_le_pow_right (by decide) (by omega)
        _ = 2 ^ mantissa.log2 * 2 ^ (exponent - exponent' - place).toNat := pow_add _ _ _
        _ ≤ mantissa * 2 ^ (exponent - exponent' - place).toNat :=
            Nat.mul_le_mul_right _ (Nat.log2_self_le positiveLeft.ne')
    have some : mantissa * 2 ^ (exponent - exponent' - place).toNat / mantissa' ≠ 0 := by
      omega
    have bits := (Nat.le_log2 some).mpr long
    rw [targetOf]
    omega

/-- The quotient that is found before it is rounded stands for the exact quotient. -/
theorem represents_divCore (mantissa : Nat) (exponent : Int) (positiveRight : 0 < mantissa')
    (exponent' : Int) :
    let found := divCore Format.binary64 mantissa exponent mantissa' exponent'
    Represents (.ofMantissaAndAccuracy found.1 found.2.2)
      ((mantissa : ℚ) * 2 ^ exponent / (mantissa' * 2 ^ exponent') / 2 ^ found.2.1) := by
  intro found
  have same : found = _ := divCore_eq mantissa exponent mantissa' exponent'
  have notAbove : quotientExponent mantissa exponent mantissa' exponent' ≤ exponent - exponent' :=
    min_le_left _ _
  rw [same]
  simp only
  generalize quotientExponent mantissa exponent mantissa' exponent' = place at *
  obtain ⟨places, gap⟩ : ∃ places : Nat, exponent - exponent' - place = places :=
    ⟨(exponent - exponent' - place).toNat, by omega⟩
  have quotient : (mantissa : ℚ) * 2 ^ exponent / (mantissa' * 2 ^ exponent') / 2 ^ place =
      (mantissa * 2 ^ places : Nat) / mantissa' := by
    have split : exponent = place + places + exponent' := by omega
    rw [split, zpow_add₀ (by norm_num), zpow_add₀ (by norm_num), zpow_natCast]
    push_cast
    field_simp
  rw [gap, Int.toNat_natCast, quotient]
  exact represents_fraction _ positiveRight

/-- A quotient is rounded to the nearest number. -/
theorem roundWithAccuracy_divCore (negative : Bool) (positiveLeft : 0 < mantissa)
    (positiveRight : 0 < mantissa') (exponent exponent' : Int) :
    let found := divCore Format.binary64 mantissa exponent mantissa' exponent'
    ∃ nearest place, IsRounded nearest place ∧
      RoundsTo nearest place ((mantissa : ℚ) * 2 ^ exponent / (mantissa' * 2 ^ exponent')) ∧
        roundWithAccuracy Format.binary64 (signOf negative) found.1 found.2.1 found.2.2 =
          unpackedOf negative nearest place := by
  intro found
  have same : found = _ := divCore_eq mantissa exponent mantissa' exponent'
  have fits : found.2.1 ≤ targetOf found.1 found.2.1 := by
    rw [same]
    exact quotientExponent_le positiveLeft positiveRight exponent exponent'
  exact roundWithAccuracy_spec negative
    (represents_divCore mantissa exponent positiveRight exponent') fits

/-- The quotient of two positive finite numbers is the number nearest to the quotient of
their values. -/
theorem div_eq_assemble (finite : parts x = .finite false mantissa exponent)
    (finite' : parts y = .finite false mantissa' exponent')
    (positiveLeft : 0 < mantissa) (positiveRight : 0 < mantissa')
    (some : 0 < numerator) (positive : 0 < denominator)
    (value : (numerator : ℚ) / denominator =
      mantissa * 2 ^ exponent / (mantissa' * 2 ^ exponent')) :
    x / y = assemble false (nearestBits numerator denominator) := by
  change Float.ofModel (Float.Model.pack
    (UnpackedFloat.div Format.binary64 x.toModel.unpack y.toModel.unpack)) = _
  refine ofModel_pack_of_roundsTo some positive ?_
  rw [unpack_of_finite finite, unpack_of_finite finite', unpackedOf_of_pos false positiveLeft,
    unpackedOf_of_pos false positiveRight, value]
  exact roundWithAccuracy_divCore false positiveLeft positiveRight exponent exponent'

/-- Zero divided by a positive number is zero. -/
theorem zero_div (finite : parts y = .finite false mantissa exponent) (positive : 0 < mantissa) :
    assemble false 0 / y = assemble false 0 := by
  have zero : parts (assemble false 0) = .finite false 0 (-1074) := by decide
  change Float.ofModel (Float.Model.pack
    (UnpackedFloat.div Format.binary64 (assemble false 0).toModel.unpack y.toModel.unpack)) = _
  rw [unpack_of_finite zero, unpack_of_finite finite, unpackedOf_of_pos false positive]
  rfl

end MetricQuery.Decimal
