import MetricQuery.Decimal.Reader
import MetricQuery.Proofs.Decimal.Shortest
import MetricQuery.Proofs.Text.Blank

/-!
# Written numbers are read back

The digits of a natural number have the number as their value, and zeros in front
do not change it. So a decimal in positional form is read as a decimal of the same
value, wherever its point stands.

A decimal of a size that a finite number can have is read as the number that it is
rounded to. The main statement is that the plain text of any number, also of an
infinite one and of the value that is no number, is read as the number itself, with
its sign.
-/

namespace MetricQuery.Decimal

open Text (isDigit)

/-- The value of a run of digits is that of the standard library. -/
theorem digitsValue_eq (digits : List Char) : digitsValue digits = Nat.ofDigitChars 10 digits 0 :=
  rfl

/-- The digits of a natural number are digits. -/
theorem isDigit_of_mem_digitsOf {n : Nat} {c : Char} (member : c ∈ digitsOf n) :
    isDigit c = true := by
  have digit := Nat.isDigit_of_mem_toDigits (by decide) (by decide) member
  rw [Text.isDigit_iff]
  rw [Char.isDigit, Bool.and_eq_true, decide_eq_true_eq, decide_eq_true_eq] at digit
  exact digit

/-- A natural number has digits. -/
theorem digitsOf_ne_nil (n : Nat) : digitsOf n ≠ [] := Nat.toDigits_ne_nil

/-- The digits of a natural number have the number as their value. -/
theorem digitsValue_digitsOf (n : Nat) : digitsValue (digitsOf n) = n :=
  Nat.ofDigitChars_toDigits (by decide) (by decide)

/-- The digits of a positive number do not start with a zero. -/
theorem head?_digitsOf_ne_zero {n : Nat} (positive : 0 < n) : (digitsOf n).head? ≠ some '0' := by
  induction n using Nat.strongRecOn with
  | ind n inductionHypothesis =>
    rw [digitsOf, Nat.toDigits_eq_if (by decide)]
    split
    · rename_i small
      intro zero
      have code := congrArg Char.toNat (Option.some.inj zero)
      rw [Nat.toNat_digitChar_of_lt_ten small] at code
      have nothing : n = 0 := Nat.add_left_cancel code
      omega
    · rename_i large
      have higher := inductionHypothesis (n / 10) (by omega) (by omega)
      rwa [List.head?_append_of_ne_nil _ Nat.toDigits_ne_nil]

/-- The digits of a natural number start with a zero only if there are no others. -/
theorem digitsOf_of_head?_zero {n : Nat} (zero : (digitsOf n).head? = some '0') :
    digitsOf n = ['0'] := by
  rcases Nat.eq_zero_or_pos n with rfl | positive
  · rfl
  · exact absurd zero (head?_digitsOf_ne_zero positive)

/-- Zeros are digits. -/
theorem isDigit_of_mem_zeros {count : Nat} {c : Char} (member : c ∈ zeros count) :
    isDigit c = true := by
  rw [List.eq_of_mem_replicate member]
  rfl

/-- Zeros behind digits multiply their value. -/
theorem digitsValue_zeros_behind (digits : List Char) (count : Nat) :
    digitsValue (digits ++ zeros count) = digitsValue digits * tenTo count := by
  rw [digitsValue_eq, Nat.ofDigitChars_append, zeros, Nat.ofDigitChars_replicate_zero,
    Nat.mul_comm]
  rfl

/-- Zeros in front of digits do not change their value. -/
theorem digitsValue_zeros_before (count : Nat) (digits : List Char) :
    digitsValue (zeros count ++ digits) = digitsValue digits := by
  rw [digitsValue_eq, Nat.ofDigitChars_append, zeros, Nat.ofDigitChars_replicate_zero,
    Nat.mul_zero]
  rfl

/-- A run of digits in front of anything but a digit is split off. -/
theorem splitDigits_append {digits rest : List Char} (all : ∀ c ∈ digits, isDigit c = true)
    (stops : ∀ c ∈ rest.head?, isDigit c = false) :
    splitDigits (digits ++ rest) = (digits, rest) := by
  rw [splitDigits, List.takeWhile_append_of_pos all, List.dropWhile_append_of_pos all]
  cases rest with
  | nil => simp
  | cons c rest =>
    have stop : isDigit c = false := stops c rfl
    rw [List.takeWhile_cons_of_neg (by simp [stop]), List.dropWhile_cons_of_neg (by simp [stop]),
      List.append_nil]

/-- A run of digits is split off whole. -/
theorem splitDigits_digits {digits : List Char} (all : ∀ c ∈ digits, isDigit c = true) :
    splitDigits digits = (digits, []) := by
  have whole := @splitDigits_append digits [] all (by simp)
  rwa [List.append_nil] at whole

/-- Digits without a point are read as a whole number. -/
theorem readMagnitude_digits (negative : Bool) {digits : List Char} (some : digits ≠ [])
    (all : ∀ c ∈ digits, isDigit c = true) :
    readMagnitude negative digits = .some (ofDecimal negative (digitsValue digits) 0) := by
  have notEmpty : digits.isEmpty = false := by simpa using some
  simp [readMagnitude, splitDigits_digits all, splitFraction, readExponent, notEmpty]

/-- Digits around a point are read with so many places behind it. -/
theorem readMagnitude_point (negative : Bool) {whole fraction : List Char} (some : whole ≠ [])
    (all : ∀ c ∈ whole ++ fraction, isDigit c = true) :
    readMagnitude negative (whole ++ '.' :: fraction) =
      .some (ofDecimal negative (digitsValue (whole ++ fraction)) (-fraction.length)) := by
  obtain ⟨before, behind⟩ := List.forall_mem_append.mp all
  have notEmpty : whole.isEmpty = false := by simpa using some
  have first := @splitDigits_append whole ('.' :: fraction) before (by simp [isDigit])
  simp [readMagnitude, first, splitDigits_digits behind, splitFraction, readExponent, notEmpty]

/-- Whether digits around a point write a decimal, with no zero in front of the others. -/
structure WritesPoint (whole fraction : List Char) (digits : Digits) : Prop where
  /-- There are digits in front of the point. -/
  some : whole ≠ []
  /-- They start with a zero only if there are no others. -/
  leading : whole.head? = .some '0' → whole = ['0']
  /-- So many digits stand behind the point as the decimal has places. -/
  places : -(fraction.length : Int) = digits.exponent
  /-- There is nothing but digits. -/
  isDigit : ∀ c ∈ whole ++ fraction, isDigit c = true
  /-- All digits together have the value of the decimal. -/
  value : digitsValue (whole ++ fraction) = digits.value

/-- A decimal with places behind its point is written around the point. -/
theorem exists_writesPoint (ending : List Char) {value : Nat} {exponent : Int} (behind : exponent < 0) :
    ∃ whole fraction, positionalText ending ⟨value, exponent⟩ = whole ++ '.' :: fraction ∧
      WritesPoint whole fraction ⟨value, exponent⟩ := by
  obtain ⟨places, rfl⟩ : ∃ places : Nat, exponent = -places := ⟨(-exponent).toNat, by omega⟩
  have same : (-(-(places : Int))).toNat = places := by omega
  rw [positionalText, if_neg (not_le.mpr behind), same]
  simp only
  split
  · -- The point stands among the digits.
    rename_i inside
    have parts := List.take_append_drop ((digitsOf value).length - places) (digitsOf value)
    have front : (digitsOf value).length - places ≠ 0 := by omega
    refine ⟨_, _, rfl, ?_, ?_, ?_, ?_, ?_⟩
    · intro nothing
      have none := congrArg List.length nothing
      simp only [List.length_take, List.length_nil] at none
      omega
    · intro zero
      rw [List.head?_take, if_neg front] at zero
      have alone := congrArg List.length (digitsOf_of_head?_zero zero)
      rw [List.length_singleton] at alone
      omega
    · rw [List.length_drop, Nat.sub_sub_self inside.le]
    · rw [parts]
      exact fun _ => isDigit_of_mem_digitsOf
    · rw [parts, digitsValue_digitsOf]
  · -- The digits start with zeros behind the point.
    rename_i outside
    refine ⟨['0'], zeros (places - (digitsOf value).length) ++ digitsOf value, by simp, nofun,
      fun _ => rfl, ?_, ?_, ?_⟩
    · rw [List.length_append, zeros, List.length_replicate]
      dsimp only
      omega
    · exact List.forall_mem_append.mpr ⟨fun _ => @isDigit_of_mem_zeros 1 _,
        List.forall_mem_append.mpr ⟨fun _ => isDigit_of_mem_zeros,
          fun _ => isDigit_of_mem_digitsOf⟩⟩
    · rw [show ['0'] = zeros 1 from rfl, digitsValue_zeros_before, digitsValue_zeros_before,
        digitsValue_digitsOf]

/-- A decimal in positional form is read as a decimal of the same value. -/
theorem readMagnitude_positionalText (negative : Bool) (digits : Digits) :
    ∃ read : Digits, read.toRat = digits.toRat ∧
      readMagnitude negative (positionalText [] digits) =
        some (ofDecimal negative read.value read.exponent) := by
  obtain ⟨value, exponent⟩ := digits
  by_cases whole : 0 ≤ exponent
  · -- Zeros up to the point belong to the value that is read.
    obtain ⟨places, rfl⟩ := Int.eq_ofNat_of_zero_le whole
    refine ⟨⟨value * tenTo places, 0⟩, ?_, ?_⟩
    · simp [Digits.toRat, cast_tenTo]
    · have all : ∀ c ∈ digitsOf value ++ zeros places, isDigit c = true :=
        List.forall_mem_append.mpr ⟨fun _ => isDigit_of_mem_digitsOf,
          fun _ => isDigit_of_mem_zeros⟩
      rw [positionalText, if_pos whole, List.append_nil, Int.toNat_natCast,
        readMagnitude_digits negative (by simp [digitsOf_ne_nil]) all, digitsValue_zeros_behind,
        digitsValue_digitsOf]
  · obtain ⟨before, behind, text, writes⟩ := exists_writesPoint [] (not_le.mp whole)
    refine ⟨⟨value, exponent⟩, rfl, ?_⟩
    rw [text, readMagnitude_point negative writes.some writes.isDigit, writes.value, writes.places]

variable {mantissa : Nat} {exponent : Int}

/-- What is rounded to a positive number lies in the range of finite numbers. -/
theorem RoundsTo.inRange {value : ℚ} (positive : 0 < mantissa)
    (encoded : IsEncoded mantissa exponent) (rounds : RoundsTo mantissa exponent value) :
    (2 : ℚ) ^ (-1075 : ℤ) ≤ value ∧ value < 2 ^ (1024 : ℤ) := by
  have unit : (0 : ℚ) < 2 ^ exponent := by positivity
  have some : (1 : ℚ) ≤ mantissa := by exact_mod_cast positive
  have quarters := (quartersBelow_bounds mantissa exponent).2
  have half : (1 / 2 : ℚ) ≤ mantissa - quartersBelow mantissa exponent / 4 := by linarith
  constructor
  · calc (2 : ℚ) ^ (-1075 : ℤ) = 1 / 2 * 2 ^ (-1074 : ℤ) := by
          rw [show (-1075 : ℤ) = -1074 - 1 by norm_num, zpow_sub_one₀ (by norm_num)]
          ring
      _ ≤ (mantissa - quartersBelow mantissa exponent / 4) * 2 ^ exponent := by
          refine mul_le_mul half ?_ (by positivity) (by linarith)
          exact zpow_le_zpow_right₀ (by norm_num) encoded.least
      _ ≤ value := (le_div_iff₀ unit).mp rounds.lower
  · refine (rounds.lt_zpow encoded.short).trans_le ?_
    refine zpow_le_zpow_right₀ (by norm_num) ?_
    have most := encoded.most
    omega

/-- What is rounded to a positive number is not zero. -/
theorem RoundsTo.value_pos {digits : Digits} (positive : 0 < mantissa)
    (encoded : IsEncoded mantissa exponent) (rounds : RoundsTo mantissa exponent digits.toRat) :
    0 < digits.value := by
  have lower := (rounds.inRange positive encoded).1
  rw [Nat.pos_iff_ne_zero]
  intro zero
  have nothing : digits.toRat = 0 := by simp [Digits.toRat, zero]
  rw [nothing] at lower
  exact absurd lower (not_le.mpr (by positivity))

/-- Three factors of two are less than one of ten. -/
theorem two_zpow_le_ten_zpow (n : Nat) : (2 : ℚ) ^ (3 * n : ℤ) ≤ 10 ^ (n : ℤ) := by
  rw [zpow_mul, zpow_natCast, zpow_natCast]
  gcongr
  norm_num

/-- The leading place of a decimal in the range of finite numbers is not far from its point. -/
theorem digitCount_inRange {digits : Digits} (some : 0 < digits.value)
    (lower : (2 : ℚ) ^ (-1075 : ℤ) ≤ digits.toRat) (upper : digits.toRat < 2 ^ (1024 : ℤ)) :
    -400 ≤ digits.exponent + digitCount digits.value ∧
      digits.exponent + digitCount digits.value ≤ 400 := by
  obtain ⟨_, atLeast, below⟩ := digitCount_spec some
  have unit : (0 : ℚ) < 10 ^ digits.exponent := by positivity
  have ten : (1 : ℚ) < 10 := by norm_num
  have join (place : ℤ) : (10 : ℚ) ^ place * 10 ^ digits.exponent =
      10 ^ (place + digits.exponent) := (zpow_add₀ (by norm_num) _ _).symm
  constructor
  · have small : (10 : ℚ) ^ (-359 : ℤ) <
        10 ^ ((digitCount digits.value : ℤ) + digits.exponent) := by
      calc (10 : ℚ) ^ (-359 : ℤ) ≤ 2 ^ (-1077 : ℤ) := by
            rw [zpow_neg, zpow_neg]
            exact inv_anti₀ (by positivity) (two_zpow_le_ten_zpow 359)
        _ ≤ 2 ^ (-1075 : ℤ) := zpow_le_zpow_right₀ (by norm_num) (by norm_num)
        _ ≤ digits.value * 10 ^ digits.exponent := lower
        _ < 10 ^ (digitCount digits.value : ℤ) * 10 ^ digits.exponent :=
            mul_lt_mul_of_pos_right below unit
        _ = 10 ^ ((digitCount digits.value : ℤ) + digits.exponent) := join _
    have places := (zpow_lt_zpow_iff_right₀ ten).mp small
    omega
  · have large : (10 : ℚ) ^ ((digitCount digits.value : ℤ) - 1 + digits.exponent) <
        10 ^ (342 : ℤ) := by
      calc (10 : ℚ) ^ ((digitCount digits.value : ℤ) - 1 + digits.exponent)
          = 10 ^ ((digitCount digits.value : ℤ) - 1) * 10 ^ digits.exponent := (join _).symm
        _ ≤ digits.value * 10 ^ digits.exponent := mul_le_mul_of_nonneg_right atLeast unit.le
        _ < 2 ^ (1024 : ℤ) := upper
        _ ≤ 2 ^ (1026 : ℤ) := zpow_le_zpow_right₀ (by norm_num) (by norm_num)
        _ ≤ 10 ^ (342 : ℤ) := two_zpow_le_ten_zpow 342
    have places := (zpow_lt_zpow_iff_right₀ ten).mp large
    omega

/-- A decimal is read as the number that it is rounded to. -/
theorem ofDecimal_of_roundsTo (negative : Bool) {digits : Digits} (positive : 0 < mantissa)
    (encoded : IsEncoded mantissa exponent)
    (rounds : RoundsTo mantissa exponent digits.toRat) :
    ofDecimal negative digits.value digits.exponent =
      assemble negative ((exponent + 1074).toNat * 2 ^ 52 + mantissa) := by
  obtain ⟨lower, upper⟩ := rounds.inRange positive encoded
  have some := rounds.value_pos positive encoded
  obtain ⟨notFarBelow, notFarAbove⟩ := digitCount_inRange some lower upper
  rw [ofDecimal, if_neg (by omega), if_neg (by omega), if_neg (by omega)]
  rw [Digits.toRat] at rounds
  by_cases whole : 0 ≤ digits.exponent
  · obtain ⟨places, same⟩ := Int.eq_ofNat_of_zero_le whole
    rw [if_pos whole]
    rw [same] at rounds ⊢
    rw [nearestBits_of_roundsTo (Nat.mul_pos some (tenTo_pos _)) Nat.one_pos encoded]
    push_cast [cast_tenTo]
    simpa using rounds
  · obtain ⟨places, same⟩ : ∃ places : Nat, digits.exponent = -places :=
      ⟨(-digits.exponent).toNat, by omega⟩
    rw [if_neg whole]
    rw [same] at rounds ⊢
    rw [nearestBits_of_roundsTo some (tenTo_pos _) encoded]
    rw [cast_tenTo, div_eq_mul_inv, ← zpow_neg]
    simpa using rounds

/-- An unsigned number is read with the sign in front of it. -/
theorem readFloat_of_magnitude {negative : Bool} {text : List Char} {x : Float}
    (read : readMagnitude negative text = some x) :
    readFloat (if negative then '-' :: text else text) = some x := by
  cases negative with
  | true => simp [readFloat, splitSign, read]
  | false =>
    have unsigned : splitSign text = (false, text) := by
      unfold splitSign
      split
      · simp [readMagnitude, splitDigits, splitFraction, isDigit] at read
      · simp [readMagnitude, splitDigits, splitFraction, isDigit] at read
      · rfl
    simp [readFloat, unsigned, read]

/-- A decimal in plain text is read as the number that it is rounded to. -/
theorem readFloat_plain {negative : Bool} {x : Float}
    (finite : parts x = .finite negative mantissa exponent) :
    readFloat (plain.text negative mantissa exponent) = some x := by
  have encoded := isEncoded_of_finite finite
  have whole := assemble_of_finite finite
  rw [Style.text]
  apply readFloat_of_magnitude
  by_cases zero : mantissa = 0
  · subst zero
    have least : exponent = -1074 := by
      have full := encoded.full
      omega
    subst least
    rw [if_pos rfl, ← whole]
    rfl
  · have positive := Nat.pos_of_ne_zero zero
    obtain ⟨read, same, reads⟩ :=
      readMagnitude_positionalText negative (shortest plain.tie mantissa exponent)
    have rounds := shortest_roundsTo plain.tie positive encoded
    rw [← same] at rounds
    rw [if_neg zero, ← whole, ← ofDecimal_of_roundsTo negative positive encoded rounds]
    exact reads

/-- The plain text of a number is read as the number, with its sign, whether it is finite
or not. -/
theorem readFloat_plainText (x : Float) : readFloat (plainText x) = some x := by
  rw [plainText]
  cases shape : parts x with
  | notANumber =>
    rw [eq_notANumber shape]
    rfl
  | infinite negative =>
    rw [← assemble_of_infinite shape]
    cases negative <;> rfl
  | finite negative mantissa exponent => exact readFloat_plain shape

end MetricQuery.Decimal
