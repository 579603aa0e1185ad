import Mathlib
import MetricQuery.Cell

/-!
# Numbers and their encodings

A floating-point number is told by its 64 bits: the sign, eleven bits of
exponent and 52 bits of mantissa. The parts of a number are read off these
fields, and they determine it. A finite number is put together again from its
sign, its mantissa and its exponent, an infinite one from its sign, and there is
one value that is no number, since only one of its encodings is valid.
-/

namespace MetricQuery.Decimal

open Float.Model Float.Model.UnpackedFloat

/-- The four ways in which the fields of an encoding are read. -/
theorem parts_cases (x : Float) :
    let bits : Nat := x.toBits.toNat
    let negative := decide (2 ^ 63 ≤ bits)
    let field : Nat := bits / 2 ^ 52 % 2 ^ 11
    let fraction : Nat := bits % 2 ^ 52
    (field = 2047 ∧ fraction = 0 ∧ parts x = .infinite negative) ∨
      (field = 2047 ∧ fraction ≠ 0 ∧ parts x = .notANumber) ∨
      (field = 0 ∧ parts x = .finite negative fraction (-1074)) ∨
      (field ≠ 2047 ∧ field ≠ 0 ∧
        parts x = .finite negative (2 ^ 52 + fraction) ((field : Int) - 1075)) := by
  intro bits negative field fraction
  have unfolded : parts x =
      if field = 2047 then if fraction = 0 then .infinite negative else .notANumber
      else if field = 0 then .finite negative fraction (-1074)
      else .finite negative (2 ^ 52 + fraction) ((field : Int) - 1075) := rfl
  by_cases top : field = 2047
  · by_cases whole : fraction = 0
    · exact .inl ⟨top, whole, by rw [unfolded, if_pos top, if_pos whole]⟩
    · exact .inr (.inl ⟨top, whole, by rw [unfolded, if_pos top, if_neg whole]⟩)
  · by_cases bottom : field = 0
    · exact .inr (.inr (.inl ⟨bottom, by rw [unfolded, if_neg top, if_pos bottom]⟩))
    · exact .inr (.inr (.inr ⟨top, bottom, by rw [unfolded, if_neg top, if_neg bottom]⟩))

/-- The bits of a number are its sign, its exponent field and its fraction. -/
theorem bits_eq (x : Float) :
    x.toBits.toNat = (if 2 ^ 63 ≤ x.toBits.toNat then 2 ^ 63 else 0) +
      (x.toBits.toNat / 2 ^ 52 % 2 ^ 11 * 2 ^ 52 + x.toBits.toNat % 2 ^ 52) := by
  have bound : x.toBits.toNat < 2 ^ 64 := x.toBits.toNat_lt
  by_cases sign : 2 ^ 63 ≤ x.toBits.toNat
  · have top : x.toBits.toNat / 2 ^ 52 / 2 ^ 11 = 1 := by omega
    rw [if_pos sign]
    omega
  · have top : x.toBits.toNat / 2 ^ 52 / 2 ^ 11 = 0 := by omega
    rw [if_neg sign]
    omega

/-- A mantissa and an exponent as a finite number has them: 53 bits of mantissa, with
the leading one set unless the exponent is the smallest. -/
structure IsEncoded (mantissa : Nat) (exponent : Int) : Prop where
  /-- The mantissa has 53 bits. -/
  short : mantissa < 2 ^ 53
  /-- The smallest exponent. -/
  least : -1074 ≤ exponent
  /-- The largest exponent of a finite number. -/
  most : exponent ≤ 971
  /-- Only at the smallest exponent may the leading bit be missing. -/
  full : exponent = -1074 ∨ 2 ^ 52 ≤ mantissa

/-- The mantissa and the exponent of a finite number are those of an encoding. -/
theorem isEncoded_of_finite {x : Float} {negative : Bool} {mantissa : Nat} {exponent : Int}
    (finite : parts x = .finite negative mantissa exponent) : IsEncoded mantissa exponent := by
  rcases parts_cases x with ⟨_, _, same⟩ | ⟨_, _, same⟩ | ⟨bottom, same⟩ | ⟨top, bottom, same⟩
  · simp [same] at finite
  · simp [same] at finite
  · rw [same, Parts.finite.injEq] at finite
    obtain ⟨rfl, rfl, rfl⟩ := finite
    exact ⟨by omega, by omega, by omega, by omega⟩
  · rw [same, Parts.finite.injEq] at finite
    obtain ⟨rfl, rfl, rfl⟩ := finite
    exact ⟨by omega, by omega, by omega, by omega⟩

/-- The bits of a finite number: the mantissa is added to the exponent field in place. -/
theorem bits_of_finite {x : Float} {negative : Bool} {mantissa : Nat} {exponent : Int}
    (finite : parts x = .finite negative mantissa exponent) :
    x.toBits.toNat =
      (if negative then 2 ^ 63 else 0) + ((exponent + 1074).toNat * 2 ^ 52 + mantissa) := by
  have bits := bits_eq x
  rcases parts_cases x with ⟨_, _, same⟩ | ⟨_, _, same⟩ | ⟨bottom, same⟩ | ⟨top, bottom, same⟩
  · simp [same] at finite
  · simp [same] at finite
  · rw [same, Parts.finite.injEq] at finite
    obtain ⟨rfl, rfl, rfl⟩ := finite
    rw [bottom] at bits
    simpa using bits
  · rw [same, Parts.finite.injEq] at finite
    obtain ⟨rfl, rfl, rfl⟩ := finite
    simp only [decide_eq_true_eq]
    generalize x.toBits.toNat / 2 ^ 52 % 2 ^ 11 = field at *
    generalize x.toBits.toNat % 2 ^ 52 = fraction at *
    refine bits.trans ?_
    rw [Nat.add_left_cancel_iff]
    omega

/-- The bits of an infinity. -/
theorem bits_of_infinite {x : Float} {negative : Bool} (infinite : parts x = .infinite negative) :
    x.toBits.toNat = (if negative then 2 ^ 63 else 0) + infinityBits := by
  have bits := bits_eq x
  have value : infinityBits = 2047 * 2 ^ 52 := rfl
  rcases parts_cases x with ⟨top, whole, same⟩ | ⟨_, _, same⟩ | ⟨_, same⟩ | ⟨_, _, same⟩
  · rw [same, Parts.infinite.injEq] at infinite
    subst infinite
    simp only [decide_eq_true_eq]
    omega
  all_goals simp [same] at infinite

/-- A number is put together from its sign and the rest of its bits. -/
theorem assemble_of_bits {x : Float} {negative : Bool} {magnitude : Nat}
    (bits : x.toBits.toNat = (if negative then 2 ^ 63 else 0) + magnitude) :
    assemble negative magnitude = x := by
  have same : (if negative then twoTo 63 + magnitude else magnitude) = x.toBits.toNat := by
    rw [bits]
    cases negative
    · simp
    · rfl
  rw [assemble, same, UInt64.ofNat_toNat, Float.ofBits_toBits]

/-- A finite number is put together from its parts. -/
theorem assemble_of_finite {x : Float} {negative : Bool} {mantissa : Nat} {exponent : Int}
    (finite : parts x = .finite negative mantissa exponent) :
    assemble negative ((exponent + 1074).toNat * 2 ^ 52 + mantissa) = x :=
  assemble_of_bits (bits_of_finite finite)

/-- An infinity is put together from its sign. -/
theorem assemble_of_infinite {x : Float} {negative : Bool}
    (infinite : parts x = .infinite negative) : assemble negative infinityBits = x :=
  assemble_of_bits (bits_of_infinite infinite)

/-- There is one value that is no number. -/
theorem eq_notANumber {x : Float} (none : parts x = .notANumber) : x = notANumber := by
  obtain ⟨field, fraction⟩ :
      x.toBits.toNat / 2 ^ 52 % 2 ^ 11 = 2047 ∧ x.toBits.toNat % 2 ^ 52 ≠ 0 := by
    rcases parts_cases x with ⟨_, _, same⟩ | ⟨top, whole, _⟩ | ⟨_, same⟩ | ⟨_, _, same⟩
    · simp [same] at none
    · exact ⟨top, whole⟩
    · simp [same] at none
    · simp [same] at none
  have exponent : @unpackExponent Format.binary64 x.toBits.toBitVec = -1#_ := by
    apply BitVec.eq_of_toNat_eq
    rw [unpackExponent_def, BitVec.extractLsb'_toNat, Nat.shiftRight_eq_div_pow]
    exact field
  have mantissa : @unpackMantissa Format.binary64 x.toBits.toBitVec ≠ 0#_ := by
    intro nothing
    have zero := congrArg BitVec.toNat nothing
    rw [unpackMantissa_def, BitVec.extractLsb'_toNat, Nat.shiftRight_zero] at zero
    exact fraction zero
  have bits := x.toModel.valid.eq_packedNaN exponent mantissa
  exact Float.toBits_inj.mp (UInt64.toBitVec_inj.mp (bits.trans (by decide)))

end MetricQuery.Decimal
