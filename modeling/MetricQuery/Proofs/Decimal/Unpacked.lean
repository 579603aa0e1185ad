import MetricQuery.Proofs.Decimal.Bits

/-!
# Numbers that are computed with

Arithmetic takes a number apart into a sign, a mantissa and an exponent, and puts its
result together from them. Its parts are the same as those that are read off the fields
of the encoding, and its result has the encoding that the mantissa gives when it is added
to the exponent field in place. A result beyond the largest exponent is infinite.
-/

namespace MetricQuery.Decimal

open Float.Model Float.Model.UnpackedFloat

/-- The sign of a number in arithmetic. -/
def signOf (negative : Bool) : Sign := if negative then .negative else .positive

/-- A mantissa and an exponent as a rounded number has them: 53 bits of mantissa, with
the leading one set unless the exponent is the smallest. The exponent may be too large. -/
structure IsRounded (mantissa : Nat) (exponent : Int) : Prop where
  /-- The mantissa has 53 bits. -/
  short : mantissa < 2 ^ 53
  /-- The smallest exponent. -/
  least : -1074 ≤ exponent
  /-- Only at the smallest exponent may the leading bit be missing. -/
  full : exponent = -1074 ∨ 2 ^ 52 ≤ mantissa

/-- A finite number has the parts of a rounded one. -/
theorem IsEncoded.isRounded {mantissa : Nat} {exponent : Int}
    (encoded : IsEncoded mantissa exponent) : IsRounded mantissa exponent :=
  ⟨encoded.short, encoded.least, encoded.full⟩

/-- A number for arithmetic. -/
def unpackedOf (negative : Bool) (mantissa : Nat) (exponent : Int) : UnpackedFloat :=
  if zero : mantissa = 0 then .zero (signOf negative)
  else .finite (signOf negative) mantissa exponent (Nat.pos_of_ne_zero zero)

/-- The encoding of a rounded number without its sign: that of its mantissa and its exponent,
or that of infinity where the exponent is too large. -/
def encodingOf (mantissa : Nat) (exponent : Int) : Nat :=
  min ((exponent + 1074).toNat * 2 ^ 52 + mantissa) infinityBits

/-- Fields of an encoding side by side. -/
theorem toNat_packComponents (negative : Bool) (field : BitVec 11) (fraction : BitVec 52) :
    (packComponents Format.binary64 (signOf negative) field fraction).toNat =
      (if negative then 2 ^ 63 else 0) + (field.toNat * 2 ^ 52 + fraction.toNat) := by
  have sign : (signOf negative).toBitVec.toNat = if negative then 1 else 0 := by
    cases negative <;> rfl
  have fieldBound : field.toNat < 2 ^ 11 := field.isLt
  have fractionBound : fraction.toNat < 2 ^ 52 := fraction.isLt
  have inner : ((signOf negative).toBitVec ++ field).toNat =
      (if negative then 1 else 0) * 2 ^ 11 + field.toNat := by
    rw [BitVec.toNat_append, Nat.shiftLeft_eq, sign, Nat.mul_comm,
      ← Nat.two_pow_add_eq_or_of_lt fieldBound]
  have outer : ((signOf negative).toBitVec ++ field ++ fraction).toNat =
      ((if negative then 1 else 0) * 2 ^ 11 + field.toNat) * 2 ^ 52 + fraction.toNat := by
    rw [BitVec.toNat_append, Nat.shiftLeft_eq, inner, Nat.mul_comm _ (2 ^ 52),
      ← Nat.two_pow_add_eq_or_of_lt fractionBound]
  refine outer.trans ?_
  cases negative
  · simp
  · simp only [if_true]
    omega

/-- The encoding of a result is that of its mantissa and its exponent. -/
theorem toNat_pack (negative : Bool) {mantissa : Nat} {exponent : Int}
    (rounded : IsRounded mantissa exponent) :
    (UnpackedFloat.pack Format.binary64 (unpackedOf negative mantissa exponent)).toNat =
      (if negative then 2 ^ 63 else 0) + encodingOf mantissa exponent := by
  obtain ⟨short, least, full⟩ := rounded
  have infinity : infinityBits = 2047 * 2 ^ 52 := rfl
  rw [unpackedOf]
  by_cases zero : mantissa = 0
  · have smallest : exponent = -1074 := by omega
    rw [dif_pos zero, zero, smallest]
    cases negative <;> rfl
  · rw [dif_neg zero]
    have biased : (exponent + (1023 : Nat) + (52 : Nat)).toNat = (exponent + 1075).toNat := by
      omega
    have bits : mantissa.log2 + 1 = 53 ↔ 2 ^ 52 ≤ mantissa := by
      have below : mantissa.log2 < 53 := (Nat.log2_lt zero).mpr short
      rw [← Nat.le_log2 zero]
      omega
    change BitVec.toNat (if 2 ^ 11 ≤ (exponent + (1023 : Nat) + (52 : Nat)).toNat + 1 then
        packedInfinity Format.binary64 (signOf negative)
      else if mantissa.log2 + 1 = 53 then
        packComponents Format.binary64 (signOf negative)
          (BitVec.ofNat 11 (exponent + (1023 : Nat) + (52 : Nat)).toNat) (BitVec.ofNat 52 mantissa)
      else packComponents Format.binary64 (signOf negative) 0#11 (BitVec.ofNat 52 mantissa)) = _
    rw [biased]
    by_cases large : 2 ^ 11 ≤ (exponent + 1075).toNat + 1
    · have value : encodingOf mantissa exponent = 2047 * 2 ^ 52 + 0 := by
        rw [encodingOf]
        omega
      rw [if_pos large, value]
      exact toNat_packComponents negative (-1#11) 0#52
    · rw [if_neg large]
      have value : encodingOf mantissa exponent = (exponent + 1074).toNat * 2 ^ 52 + mantissa := by
        rw [encodingOf]
        omega
      by_cases leading : 2 ^ 52 ≤ mantissa
      · have field : (BitVec.ofNat 11 (exponent + 1075).toNat).toNat = (exponent + 1075).toNat := by
          rw [BitVec.toNat_ofNat]
          omega
        have fraction : (BitVec.ofNat 52 mantissa).toNat = mantissa - 2 ^ 52 := by
          rw [BitVec.toNat_ofNat]
          omega
        rw [if_pos (bits.mpr leading), toNat_packComponents, field, fraction, value]
        omega
      · have fraction : (BitVec.ofNat 52 mantissa).toNat = mantissa := by
          rw [BitVec.toNat_ofNat]
          omega
        rw [if_neg (mt bits.mp leading), toNat_packComponents, fraction, value,
          full.resolve_right leading]
        rfl

/-- A result is put together from its sign and the encoding of its mantissa and exponent. -/
theorem ofModel_pack (negative : Bool) {mantissa : Nat} {exponent : Int}
    (rounded : IsRounded mantissa exponent) :
    Float.ofModel (Float.Model.pack (unpackedOf negative mantissa exponent)) =
      assemble negative (encodingOf mantissa exponent) := by
  have bits : (Float.ofModel
      (Float.Model.pack (unpackedOf negative mantissa exponent))).toBits.toNat =
        (if negative then 2 ^ 63 else 0) + encodingOf mantissa exponent :=
    toNat_pack negative rounded
  exact (assemble_of_bits bits).symm

/-- The encoding of a finite number. -/
theorem encodingOf_of_isEncoded {mantissa : Nat} {exponent : Int}
    (encoded : IsEncoded mantissa exponent) :
    encodingOf mantissa exponent = (exponent + 1074).toNat * 2 ^ 52 + mantissa := by
  obtain ⟨short, least, most, full⟩ := encoded
  have infinity : infinityBits = 2047 * 2 ^ 52 := rfl
  rw [encodingOf]
  omega

/-- The fields of the encoding of a finite number. -/
theorem fields_of_bits {bits mantissa : Nat} {negative : Bool} {exponent : Int}
    (encoded : IsEncoded mantissa exponent)
    (same : bits = (if negative then 2 ^ 63 else 0) +
      ((exponent + 1074).toNat * 2 ^ 52 + mantissa)) :
    decide (2 ^ 63 ≤ bits) = negative ∧
      ((2 ^ 52 ≤ mantissa ∧ ((bits / 2 ^ 52 % 2 ^ 11 : Nat) : Int) = exponent + 1075 ∧
          2 ^ 52 + bits % 2 ^ 52 = mantissa) ∨
        (mantissa < 2 ^ 52 ∧ exponent = -1074 ∧ bits / 2 ^ 52 % 2 ^ 11 = 0 ∧
          bits % 2 ^ 52 = mantissa)) := by
  obtain ⟨short, least, most, full⟩ := encoded
  cases negative with
  | false =>
    rw [if_neg Bool.false_ne_true, Nat.zero_add] at same
    refine ⟨decide_eq_false (by omega), ?_⟩
    omega
  | true =>
    rw [if_pos rfl] at same
    refine ⟨decide_eq_true (by omega), ?_⟩
    omega

/-- A number that is put together from finite parts has these parts. -/
theorem parts_assemble (negative : Bool) {mantissa : Nat} {exponent : Int}
    (encoded : IsEncoded mantissa exponent) :
    parts (assemble negative (encodingOf mantissa exponent)) =
      .finite negative mantissa exponent := by
  have bits : (Float.ofModel
      (Float.Model.pack (unpackedOf negative mantissa exponent))).toBits.toNat =
        (if negative then 2 ^ 63 else 0) + encodingOf mantissa exponent :=
    toNat_pack negative encoded.isRounded
  rw [encodingOf_of_isEncoded encoded] at bits
  rw [← ofModel_pack negative encoded.isRounded]
  generalize Float.ofModel (Float.Model.pack (unpackedOf negative mantissa exponent)) = x at bits
  obtain ⟨sign, fields⟩ := fields_of_bits encoded bits
  have cases := parts_cases x
  simp only [sign] at cases
  have most := encoded.most
  rcases fields with ⟨leading, field, fraction⟩ | ⟨missing, smallest, field, fraction⟩
  · rcases cases with ⟨top, _⟩ | ⟨top, _⟩ | ⟨bottom, _⟩ | ⟨_, _, same⟩
    · omega
    · omega
    · have least := encoded.least
      omega
    · rw [same, fraction, field]
      congr 1
      omega
  · rcases cases with ⟨top, _⟩ | ⟨top, _⟩ | ⟨_, same⟩ | ⟨_, some, _⟩
    · omega
    · omega
    · rw [same, fraction, smallest]
    · exact absurd field some

/-- Numbers for arithmetic with equal parts are equal. -/
theorem finite_congr {sign other : Sign} {mantissa mantissa' : Nat} {exponent exponent' : Int}
    (signs : sign = other) (mantissas : mantissa = mantissa') (exponents : exponent = exponent')
    (positive : 0 < mantissa) (positive' : 0 < mantissa') :
    UnpackedFloat.finite sign mantissa exponent positive =
      .finite other mantissa' exponent' positive' := by
  subst signs mantissas exponents
  rfl

/-- The exponent field for arithmetic is that of the encoding. -/
theorem toNat_unpackExponent (x : Float) :
    (@unpackExponent Format.binary64 x.toBits.toBitVec).toNat =
      x.toBits.toNat / 2 ^ 52 % 2 ^ 11 := by
  rw [unpackExponent_def, BitVec.extractLsb'_toNat, Nat.shiftRight_eq_div_pow]
  rfl

/-- The mantissa field for arithmetic is that of the encoding. -/
theorem toNat_unpackMantissa (x : Float) :
    (@unpackMantissa Format.binary64 x.toBits.toBitVec).toNat = x.toBits.toNat % 2 ^ 52 := by
  rw [unpackMantissa_def, BitVec.extractLsb'_toNat, Nat.shiftRight_zero]
  rfl

/-- The sign for arithmetic is that of the encoding. -/
theorem ofBitVec_unpackSign {x : Float} {negative : Bool}
    (sign : decide (2 ^ 63 ≤ x.toBits.toNat) = negative) :
    Sign.ofBitVec (@unpackSign Format.binary64 x.toBits.toBitVec) = signOf negative := by
  have bound : x.toBits.toNat < 2 ^ 64 := x.toBits.toNat_lt
  have signBit : (@unpackSign Format.binary64 x.toBits.toBitVec).toNat =
      x.toBits.toNat / 2 ^ 63 % 2 := by
    rw [unpackSign_def, BitVec.extractLsb'_toNat, Nat.shiftRight_eq_div_pow]
    rfl
  rw [← sign]
  by_cases top : 2 ^ 63 ≤ x.toBits.toNat
  · rw [decide_eq_true top]
    refine if_neg ?_
    intro zero
    have same := congrArg BitVec.toNat zero
    rw [signBit] at same
    change _ = 0 at same
    omega
  · rw [decide_eq_false top]
    refine if_pos (BitVec.eq_of_toNat_eq ?_)
    rw [signBit]
    change _ = 0
    omega

/-- A finite number is taken apart for arithmetic into the same parts. -/
theorem unpack_of_finite {x : Float} {negative : Bool} {mantissa : Nat} {exponent : Int}
    (finite : parts x = .finite negative mantissa exponent) :
    x.toModel.unpack = unpackedOf negative mantissa exponent := by
  have encoded := isEncoded_of_finite finite
  obtain ⟨sign, fields⟩ := fields_of_bits encoded (bits_of_finite finite)
  have least := encoded.least
  have most := encoded.most
  have fieldIs := toNat_unpackExponent x
  have fractionIs := toNat_unpackMantissa x
  have notTop : @unpackExponent Format.binary64 x.toBits.toBitVec ≠ -1#_ := by
    intro top
    have same := congrArg BitVec.toNat top
    rw [fieldIs] at same
    change _ = 2047 at same
    omega
  change UnpackedFloat.unpack Format.binary64 x.toBits.toBitVec = _
  simp only [UnpackedFloat.unpack, notTop, if_false, ofBitVec_unpackSign sign]
  rcases fields with ⟨leading, field, fraction⟩ | ⟨missing, smallest, field, fraction⟩
  · have notBottom : @unpackExponent Format.binary64 x.toBits.toBitVec ≠ 0#_ := by
      intro bottom
      have same := congrArg BitVec.toNat bottom
      rw [fieldIs] at same
      change _ = 0 at same
      omega
    have whole : (1#1 ++ @unpackMantissa Format.binary64 x.toBits.toBitVec).toNat = mantissa := by
      have below : (@unpackMantissa Format.binary64 x.toBits.toBitVec).toNat < 2 ^ 52 :=
        BitVec.isLt _
      rw [BitVec.toNat_append, Nat.shiftLeft_eq, Nat.mul_comm, ← Nat.two_pow_add_eq_or_of_lt below,
        fractionIs]
      exact fraction
    rw [if_neg notBottom, unpackedOf, dif_neg (by omega)]
    refine finite_congr rfl whole ?_ _ _
    rw [fieldIs, field]
    change exponent + 1075 - (1023 + 52) = exponent
    omega
  · have bottom : @unpackExponent Format.binary64 x.toBits.toBitVec = 0#_ := by
      apply BitVec.eq_of_toNat_eq
      rw [fieldIs]
      exact field
    have fractionZero : @unpackMantissa Format.binary64 x.toBits.toBitVec = 0#_ ↔ mantissa = 0 := by
      rw [← BitVec.toNat_inj, fractionIs, fraction]
      rfl
    rw [if_pos bottom, unpackedOf]
    by_cases zero : mantissa = 0
    · rw [dif_pos (fractionZero.mpr zero), dif_pos zero]
    · rw [dif_neg (mt fractionZero.mp zero), dif_neg zero]
      refine finite_congr rfl (fractionIs.trans fraction) ?_ _ _
      rw [fieldIs, field, smallest]
      rfl

/-- The negative of a finite number has the same mantissa and exponent. -/
theorem neg_assemble (negative : Bool) {mantissa : Nat} {exponent : Int}
    (encoded : IsEncoded mantissa exponent) :
    -assemble negative (encodingOf mantissa exponent) =
      assemble (!negative) (encodingOf mantissa exponent) := by
  have unpacked := unpack_of_finite (parts_assemble negative encoded)
  change Float.ofModel (Float.Model.pack (UnpackedFloat.neg (Float.Model.unpack _))) = _
  rw [unpacked, ← ofModel_pack (!negative) encoded.isRounded]
  refine congrArg (fun number => Float.ofModel (Float.Model.pack number)) ?_
  rw [unpackedOf, unpackedOf]
  split <;> cases negative <;> rfl

end MetricQuery.Decimal
