import MetricQuery.Proofs.Decimal.Nearest

/-!
# Where arithmetic stays finite

A result of arithmetic is infinite where the exponent that it is rounded to is too large.
Rounding keeps the order of numbers: what is not above a number is not rounded to one that
is, since everything that is rounded to a number lies beyond the middle between it and the
one before. So a result is finite if what it is rounded from is not above some finite number,
and then neither is the result.

Sums of two finite numbers are rounded from the exact sum of their values, whatever their
signs. A quotient by a natural number is never above what is divided, so it is finite
exactly if that is; no other number is made finite by dividing it.
-/

namespace MetricQuery.Decimal

open Float.Model Float.Model.UnpackedFloat

variable {x y : Float} {value other : ℚ} {mantissa mantissa' : Nat} {exponent exponent' : Int}

/-! ## Values with a sign -/

/-- A magnitude with a sign. -/
def withSign (negative : Bool) (magnitude : ℚ) : ℚ := if negative then -magnitude else magnitude

/-- A sign does not change how large a value is. -/
@[simp] theorem abs_withSign (negative : Bool) (magnitude : ℚ) :
    |withSign negative magnitude| = |magnitude| := by
  cases negative <;> simp [withSign]

/-- Whether a number is finite and has a value, which may be negative. -/
def HasValue (x : Float) (value : ℚ) : Prop :=
  ∃ negative mantissa exponent, parts x = .finite negative mantissa exponent ∧
    value = withSign negative (mantissa * 2 ^ exponent)

/-- A number is finite if it has a value. -/
theorem isFinite_iff : isFinite x = true ↔ ∃ value, HasValue x value := by
  rw [isFinite]
  constructor
  · split
    case h_1 negative mantissa exponent shape => exact fun _ => ⟨_, negative, mantissa, exponent, shape, rfl⟩
    case h_2 => exact fun finite => absurd finite Bool.false_ne_true
  · rintro ⟨value, negative, mantissa, exponent, shape, _⟩
    rw [shape]

/-! ## Rounding keeps the order -/

/-- A smaller number is not above the middle between a number and the one before it. -/
theorem IsRounded.le_of_lt (rounded : IsRounded mantissa exponent)
    (rounded' : IsRounded mantissa' exponent')
    (below : (mantissa : ℚ) * 2 ^ exponent < mantissa' * 2 ^ exponent') :
    (mantissa : ℚ) * 2 ^ exponent ≤
      (mantissa' - quartersBelow mantissa' exponent' / 2) * 2 ^ exponent' := by
  obtain ⟨short, least, full⟩ := rounded
  obtain ⟨short', least', full'⟩ := rounded'
  have unit : (0 : ℚ) < 2 ^ exponent' := by positivity
  have quarters := (quartersBelow_bounds mantissa' exponent').2
  rcases lt_trichotomy exponent exponent' with finer | rfl | coarser
  · have leading : 2 ^ 52 ≤ mantissa' := full'.resolve_left (by omega)
    have mantissaShort : (mantissa : ℚ) + 1 ≤ 2 ^ 53 := by exact_mod_cast short
    have room : (2 : ℚ) ^ 52 - 1 / 2 ≤ mantissa' - quartersBelow mantissa' exponent' / 2 := by
      rcases quartersBelow_cases mantissa' exponent' with ⟨one, power, _⟩ | ⟨two, notPower⟩
      · rw [one, power]
        norm_num
      · have above : 2 ^ 52 + 1 ≤ mantissa' := by omega
        have aboveCast : ((2 ^ 52 + 1 : Nat) : ℚ) ≤ mantissa' := by exact_mod_cast above
        push_cast at aboveCast
        linarith
    calc (mantissa : ℚ) * 2 ^ exponent
        ≤ (2 ^ 53 - 1) * 2 ^ (exponent' - 1) := by
          refine mul_le_mul (by linarith) ?_ (by positivity) (by norm_num)
          exact zpow_le_zpow_right₀ (by norm_num) (by omega)
      _ = (2 ^ 52 - 1 / 2) * 2 ^ exponent' := by
          rw [zpow_sub_one₀ (by norm_num)]
          ring
      _ ≤ (mantissa' - quartersBelow mantissa' exponent' / 2) * 2 ^ exponent' :=
          mul_le_mul_of_nonneg_right room unit.le
  · have less : mantissa < mantissa' := by exact_mod_cast lt_of_mul_lt_mul_right below unit.le
    have lessCast : (mantissa : ℚ) + 1 ≤ mantissa' := by exact_mod_cast less
    exact mul_le_mul_of_nonneg_right (by linarith) unit.le
  · have leading : 2 ^ 52 ≤ mantissa := full.resolve_left (by omega)
    have leadingCast : (2 : ℚ) ^ 52 ≤ mantissa := by exact_mod_cast leading
    have shortCast : (mantissa' : ℚ) ≤ 2 ^ 53 := by exact_mod_cast short'.le
    have above : (mantissa' : ℚ) * 2 ^ exponent' ≤ mantissa * 2 ^ exponent := by
      calc (mantissa' : ℚ) * 2 ^ exponent' ≤ 2 ^ 53 * 2 ^ exponent' :=
            mul_le_mul_of_nonneg_right shortCast unit.le
        _ = 2 ^ 52 * 2 ^ (exponent' + 1) := by
            rw [zpow_add_one₀ (by norm_num)]
            ring
        _ ≤ mantissa * 2 ^ exponent := by
            refine mul_le_mul leadingCast ?_ (by positivity) (by positivity)
            exact zpow_le_zpow_right₀ (by norm_num) (by omega)
    exact absurd below (not_lt.mpr above)

/-- What is not above a number is not rounded to one above it. -/
theorem RoundsTo.le_of_le (rounds : RoundsTo mantissa' exponent' value)
    (rounded' : IsRounded mantissa' exponent') (rounded : IsRounded mantissa exponent)
    (notAbove : value ≤ mantissa * 2 ^ exponent) :
    (mantissa' : ℚ) * 2 ^ exponent' ≤ mantissa * 2 ^ exponent := by
  have unit : (0 : ℚ) < 2 ^ exponent' := by positivity
  have lower := (le_div_iff₀ unit).mp rounds.lower
  have quarters := (quartersBelow_bounds mantissa' exponent').1
  by_contra above
  have before := rounded.le_of_lt rounded' (not_le.mp above)
  have gap : (mantissa' - quartersBelow mantissa' exponent' / 2 : ℚ) * 2 ^ exponent' <
      (mantissa' - quartersBelow mantissa' exponent' / 4) * 2 ^ exponent' :=
    mul_lt_mul_of_pos_right (by linarith) unit
  linarith

/-- A result is finite and not above a bound that a number holds, if what is rounded is not
above the bound. -/
theorem exists_hasValue_of_rounded (negative : Bool) (rounded : IsRounded mantissa exponent)
    (rounds : RoundsTo mantissa exponent value) {bound : ℚ} (held : ∃ y, Holds y bound)
    (notAbove : value ≤ bound) :
    ∃ result, HasValue
      (Float.ofModel (Float.Model.pack (unpackedOf negative mantissa exponent))) result ∧
        |result| ≤ bound := by
  obtain ⟨y, holds⟩ := held
  have most : exponent ≤ 971 := by
    by_contra large
    exact absurd (rounds.large rounded (not_le.mp large))
      (not_le.mpr (notAbove.trans_lt holds.bounds.2))
  have encoded : IsEncoded mantissa exponent :=
    ⟨rounded.short, rounded.least, most, rounded.full⟩
  obtain ⟨mantissa', exponent', finite, rfl⟩ := holds
  refine ⟨withSign negative (mantissa * 2 ^ exponent), ?_, ?_⟩
  · rw [ofModel_pack negative rounded]
    exact ⟨negative, mantissa, exponent, parts_assemble negative encoded, rfl⟩
  · rw [abs_withSign, abs_of_nonneg (by positivity)]
    exact rounds.le_of_le rounded (isEncoded_of_finite finite).isRounded notAbove

/-! ## Sums -/

/-- A number with any mantissa and any exponent is rounded to the nearest one. -/
theorem round_spec (negative : Bool) (positive : 0 < mantissa) (exponent : Int) :
    ∃ nearest place, IsRounded nearest place ∧ RoundsTo nearest place (mantissa * 2 ^ exponent) ∧
      UnpackedFloat.round Format.binary64 (signOf negative) mantissa exponent =
        unpackedOf negative nearest place := by
  obtain ⟨places, count⟩ : ∃ places : Nat, (exponent - targetOf mantissa exponent).toNat = places :=
    ⟨_, rfl⟩
  have same : UnpackedFloat.round Format.binary64 (signOf negative) mantissa exponent =
      roundWithAccuracy Format.binary64 (signOf negative) (mantissa * 2 ^ places)
        (exponent - places) .exact := by
    rw [← Nat.shiftLeft_eq, ← count]
    rfl
  rw [same]
  refine roundWithAccuracy_spec negative ?_ ?_
  · have value : (mantissa : ℚ) * 2 ^ exponent / 2 ^ (exponent - places) =
        (mantissa * 2 ^ places : Nat) := by
      rw [zpow_sub₀ (by norm_num), zpow_natCast]
      push_cast
      field_simp
    rw [value]
    exact represents_exact _
  · have long : 2 ^ (mantissa.log2 + places) ≤ mantissa * 2 ^ places := by
      rw [pow_add]
      exact Nat.mul_le_mul_right _ (Nat.log2_self_le positive.ne')
    have bits := (Nat.le_log2 (Nat.mul_pos positive (Nat.two_pow_pos places)).ne').mpr long
    rw [targetOf] at count ⊢
    omega

/-- A mantissa that may be negative is rounded to the nearest number. -/
theorem normalize_spec (mantissa exponent : Int) :
    ∃ negative nearest place, IsRounded nearest place ∧
      RoundsTo nearest place |(mantissa : ℚ) * 2 ^ exponent| ∧
      UnpackedFloat.normalize Format.binary64 mantissa exponent .positive =
        unpackedOf negative nearest place := by
  have unit : (0 : ℚ) < 2 ^ exponent := by positivity
  have magnitude : |(mantissa : ℚ) * 2 ^ exponent| = mantissa.natAbs * 2 ^ exponent := by
    rw [abs_mul, abs_of_pos unit, Nat.cast_natAbs, Int.cast_abs]
  rw [magnitude]
  rcases lt_trichotomy mantissa 0 with below | rfl | above
  · have some : 0 < mantissa.natAbs := by omega
    obtain ⟨nearest, place, rounded, rounds, same⟩ := round_spec true some exponent
    refine ⟨true, nearest, place, rounded, rounds, ?_⟩
    have absolute : (-mantissa).toNat = mantissa.natAbs := by omega
    rw [← same, UnpackedFloat.normalize, compare_lt_iff_lt.mpr below, absolute]
    rfl
  · exact ⟨false, 0, -1074, ⟨by decide, by decide, .inl rfl⟩, by simpa using RoundsTo.self 0 (-1074), rfl⟩
  · have some : 0 < mantissa.natAbs := by omega
    obtain ⟨nearest, place, rounded, rounds, same⟩ := round_spec false some exponent
    refine ⟨false, nearest, place, rounded, rounds, ?_⟩
    have absolute : mantissa.toNat = mantissa.natAbs := by omega
    rw [← same, UnpackedFloat.normalize, compare_gt_iff_gt.mpr above, absolute]
    rfl

/-- A number for arithmetic that is finite stands for a value as it does in its encoding. -/
theorem apply_signOf (negative : Bool) (mantissa : Nat) {exponent smallest : Int}
    (notBelow : smallest ≤ exponent) :
    ((signOf negative).apply ((mantissa <<< (exponent - smallest).toNat : Nat) : Int) : ℚ) *
      2 ^ smallest = withSign negative (mantissa * 2 ^ exponent) := by
  obtain ⟨places, gap⟩ : ∃ places : Nat, exponent = smallest + places :=
    ⟨(exponent - smallest).toNat, by omega⟩
  have count : (exponent - smallest).toNat = places := by omega
  rw [count, Nat.shiftLeft_eq, gap, zpow_add₀ (by norm_num), zpow_natCast]
  cases negative with
  | false =>
    simp only [signOf, Sign.apply, withSign, Bool.false_eq_true, if_false]
    push_cast
    ring
  | true =>
    simp only [signOf, Sign.apply, withSign, if_true]
    push_cast
    ring

/-- The sum of two finite numbers is rounded to the nearest number. -/
theorem add_spec (negative negative' : Bool) (rounded : IsRounded mantissa exponent)
    (rounded' : IsRounded mantissa' exponent') :
    ∃ sign nearest place, IsRounded nearest place ∧
      RoundsTo nearest place |withSign negative (mantissa * 2 ^ exponent) +
        withSign negative' (mantissa' * 2 ^ exponent')| ∧
      UnpackedFloat.add Format.binary64 (unpackedOf negative mantissa exponent)
        (unpackedOf negative' mantissa' exponent') = unpackedOf sign nearest place := by
  rcases Nat.eq_zero_or_pos mantissa with rfl | positive
  · have none : withSign negative ((0 : Nat) * 2 ^ exponent) = 0 := by
      cases negative <;> simp [withSign]
    rcases Nat.eq_zero_or_pos mantissa' with rfl | positive'
    · have none' : withSign negative' ((0 : Nat) * 2 ^ exponent') = 0 := by
        cases negative' <;> simp [withSign]
      refine ⟨negative && negative', 0, -1074, ⟨by decide, by decide, .inl rfl⟩, ?_, ?_⟩
      · rw [none, none']
        simpa using RoundsTo.self 0 (-1074)
      · cases negative <;> cases negative' <;> rfl
    · refine ⟨negative', mantissa', exponent', rounded', ?_, ?_⟩
      · rw [none, zero_add, abs_withSign, abs_of_nonneg (by positivity)]
        exact .self mantissa' exponent'
      · rw [unpackedOf_of_pos negative' positive']
        rfl
  · rcases Nat.eq_zero_or_pos mantissa' with rfl | positive'
    · have none' : withSign negative' ((0 : Nat) * 2 ^ exponent') = 0 := by
        cases negative' <;> simp [withSign]
      refine ⟨negative, mantissa, exponent, rounded, ?_, ?_⟩
      · rw [none', add_zero, abs_withSign, abs_of_nonneg (by positivity)]
        exact .self mantissa exponent
      · rw [unpackedOf_of_pos negative positive]
        rfl
    · have left := apply_signOf negative mantissa (min_le_left exponent exponent')
      have right := apply_signOf negative' mantissa' (min_le_right exponent exponent')
      rw [unpackedOf_of_pos negative positive, unpackedOf_of_pos negative' positive', ← left,
        ← right, ← add_mul, ← Int.cast_add]
      exact normalize_spec _ _

/-- The sum of two numbers that have values is finite and not above a bound that a number
holds, if the sum of the values is not. -/
theorem HasValue.add (left : HasValue x value) (right : HasValue y other) {bound : ℚ}
    (held : ∃ y, Holds y bound) (notAbove : |value + other| ≤ bound) :
    ∃ sum, HasValue (x + y) sum ∧ |sum| ≤ bound := by
  obtain ⟨negative, mantissa, exponent, finite, rfl⟩ := left
  obtain ⟨negative', mantissa', exponent', finite', rfl⟩ := right
  obtain ⟨sign, nearest, place, rounded, rounds, same⟩ :=
    add_spec negative negative' (isEncoded_of_finite finite).isRounded
      (isEncoded_of_finite finite').isRounded
  have sum : x + y = Float.ofModel (Float.Model.pack (unpackedOf sign nearest place)) := by
    change Float.ofModel (Float.Model.pack
      (UnpackedFloat.add Format.binary64 x.toModel.unpack y.toModel.unpack)) = _
    rw [unpack_of_finite finite, unpack_of_finite finite', same]
  rw [sum]
  exact exists_hasValue_of_rounded sign rounded rounds held notAbove

/-! ## Quotients -/

/-- A finite number divided by a positive one is rounded to the nearest number, with its sign. -/
theorem div_spec (negative : Bool) (rounded : IsRounded mantissa exponent)
    (positive : 0 < mantissa') (exponent' : Int) :
    ∃ nearest place, IsRounded nearest place ∧
      RoundsTo nearest place (mantissa * 2 ^ exponent / (mantissa' * 2 ^ exponent')) ∧
      UnpackedFloat.div Format.binary64 (unpackedOf negative mantissa exponent)
        (unpackedOf false mantissa' exponent') = unpackedOf negative nearest place := by
  rcases Nat.eq_zero_or_pos mantissa with rfl | positiveLeft
  · refine ⟨0, -1074, ⟨by decide, by decide, .inl rfl⟩, by simpa using RoundsTo.self 0 (-1074), ?_⟩
    rw [unpackedOf_of_pos false positive]
    cases negative <;> rfl
  · rw [unpackedOf_of_pos negative positiveLeft, unpackedOf_of_pos false positive]
    obtain ⟨nearest, place, isRounded, rounds, same⟩ :=
      roundWithAccuracy_divCore negative positiveLeft positive exponent exponent'
    refine ⟨nearest, place, isRounded, rounds, ?_⟩
    rw [← same]
    cases negative <;> rfl

/-- A finite number divided by one that is not less than one is finite. -/
theorem HasValue.div (left : HasValue x value) (right : Holds y other) (one : 1 ≤ other) :
    ∃ quotient, HasValue (x / y) quotient := by
  obtain ⟨negative, mantissa, exponent, finite, rfl⟩ := left
  obtain ⟨mantissa', exponent', finite', rfl⟩ := right
  have encoded := isEncoded_of_finite finite
  have positive : 0 < mantissa' := mantissa_pos (zero_lt_one.trans_le one) rfl
  obtain ⟨nearest, place, rounded, rounds, same⟩ :=
    div_spec negative encoded.isRounded positive exponent'
  have quotient : x / y = Float.ofModel (Float.Model.pack (unpackedOf negative nearest place)) := by
    change Float.ofModel (Float.Model.pack
      (UnpackedFloat.div Format.binary64 x.toModel.unpack y.toModel.unpack)) = _
    rw [unpack_of_finite finite, unpack_of_finite finite', same]
  have magnitude : Holds (assemble false (encodingOf mantissa exponent)) (mantissa * 2 ^ exponent) :=
    ⟨mantissa, exponent, parts_assemble false encoded, rfl⟩
  obtain ⟨result, hasValue, _⟩ := exists_hasValue_of_rounded negative rounded rounds ⟨_, magnitude⟩
    (div_le_self (by positivity) one)
  exact ⟨result, quotient ▸ hasValue⟩

/-! ## Numbers that are not finite -/

/-- An infinite number is taken apart for arithmetic into its sign. -/
theorem unpack_of_infinite {negative : Bool} (infinite : parts x = .infinite negative) :
    x.toModel.unpack = .infinity (signOf negative) := by
  rw [← assemble_of_infinite infinite]
  cases negative <;> rfl

/-- The value that is no number is taken apart for arithmetic into itself. -/
theorem unpack_of_notANumber (none : parts x = .notANumber) : x.toModel.unpack = .notANumber := by
  rw [eq_notANumber none]
  rfl

/-- The number that is made of a positive natural number is not less than one, or infinite. -/
theorem ofNat_cases {n : Nat} (some : 0 < n) :
    (∃ held, Holds (ofNat n) held ∧ 1 ≤ held) ∨ parts (ofNat n) = .infinite false := by
  obtain ⟨nearest, place, rounded, rounds⟩ := exists_rounded some Nat.one_pos
  have same : ofNat n = assemble false (encodingOf nearest place) :=
    congrArg (assemble false) (nearestBits_eq_encodingOf some Nat.one_pos rounded rounds)
  by_cases most : place ≤ 971
  · have encoded : IsEncoded nearest place := ⟨rounded.short, rounded.least, most, rounded.full⟩
    refine .inl ?_
    rcases Nat.lt_or_ge 1 n with several | one
    · have nearestTo : IsNearest (ofNat n) ((n : ℚ) / (1 : Nat)) :=
        ⟨nearest, place, same ▸ parts_assemble false encoded, rounds⟩
      have two : (2 : ℚ) ≤ n := by exact_mod_cast several
      rw [Nat.cast_one, div_one] at nearestTo
      have normal : (2 : ℚ) ^ (-1022 : ℤ) ≤ n :=
        (zpow_le_one_of_nonpos₀ (by norm_num) (by norm_num)).trans (by linarith)
      obtain ⟨held, holds, lower, _⟩ := nearestTo.holds normal
      exact ⟨held, holds, by linarith⟩
    · obtain rfl : n = 1 := by omega
      have exact : Holds (ofNat (1 * 2 ^ 0)) ((1 * 2 ^ 0 : Nat) : ℚ) :=
        holds_ofNat Nat.one_pos (by norm_num) (by norm_num)
      rw [Nat.pow_zero, Nat.mul_one, Nat.cast_one] at exact
      exact ⟨1, exact, le_refl _⟩
  · refine .inr ?_
    have infinite : encodingOf nearest place = infinityBits := by
      have infinity : infinityBits = 2047 * 2 ^ 52 := rfl
      have leading : 2 ^ 52 ≤ nearest := rounded.full.resolve_left (by omega)
      rw [encodingOf]
      omega
    rw [same, infinite]
    decide

/-- A result of arithmetic that is zero is finite. -/
theorem isFinite_pack_zero (sign : Sign) :
    isFinite (Float.ofModel (Float.Model.pack (.zero sign))) = true := by
  cases sign <;> decide

/-- A result of arithmetic that is infinite is not finite. -/
theorem isFinite_pack_infinity (sign : Sign) :
    isFinite (Float.ofModel (Float.Model.pack (.infinity sign))) = false := by
  cases sign <;> decide

/-- A result of arithmetic that is no number is not finite. -/
theorem isFinite_pack_notANumber :
    isFinite (Float.ofModel (Float.Model.pack .notANumber)) = false := by
  decide

/-- A number divided by a positive natural number is finite if and only if it is finite
itself. -/
theorem isFinite_div_ofNat (x : Float) {n : Nat} (some : 0 < n) :
    isFinite (x / ofNat n) = isFinite x := by
  have quotient : x / ofNat n = Float.ofModel (Float.Model.pack
    (UnpackedFloat.div Format.binary64 x.toModel.unpack (ofNat n).toModel.unpack)) := rfl
  have divisor : (∃ mantissa exponent, 0 < mantissa ∧
      parts (ofNat n) = .finite false mantissa exponent) ∨ parts (ofNat n) = .infinite false := by
    rcases ofNat_cases some with ⟨held, ⟨mantissa, exponent, finite, same⟩, one⟩ | infinite
    · exact .inl ⟨mantissa, exponent, mantissa_pos (zero_lt_one.trans_le one) same, finite⟩
    · exact .inr infinite
  cases shape : parts x with
  | finite negative mantissa exponent =>
    have finite : isFinite x = true := by rw [isFinite, shape]
    rw [finite]
    rcases ofNat_cases some with ⟨held, holds, one⟩ | infinite
    · have value : HasValue x _ := ⟨negative, mantissa, exponent, shape, rfl⟩
      exact isFinite_iff.mpr (value.div holds one)
    · rw [quotient, unpack_of_finite shape, unpack_of_infinite infinite, unpackedOf]
      split <;> exact isFinite_pack_zero _
  | infinite negative =>
    have infinite : isFinite x = false := by rw [isFinite, shape]
    rw [infinite, quotient, unpack_of_infinite shape]
    rcases divisor with ⟨mantissa, exponent, positive, finite⟩ | infinite
    · rw [unpack_of_finite finite, unpackedOf_of_pos false positive]
      exact isFinite_pack_infinity _
    · rw [unpack_of_infinite infinite]
      exact isFinite_pack_notANumber
  | notANumber =>
    have none : isFinite x = false := by rw [isFinite, shape]
    rw [none, quotient, unpack_of_notANumber shape]
    exact isFinite_pack_notANumber

end MetricQuery.Decimal
