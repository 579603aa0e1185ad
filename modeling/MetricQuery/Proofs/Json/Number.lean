import MetricQuery.Json.Writer
import MetricQuery.Proofs.Json.Lexeme
import MetricQuery.Proofs.Json.Scale

/-!
# Written numbers are read again

A floating-point number is written by its shortest decimal, positional or scientific. All
its digits fit the significand, so what is read is this decimal again, except that a whole
number is written with a point and a zero, and the zero belongs to the significand.

The number that is read is not always the one that was written: the significand and the
power of ten are rounded before one is multiplied with the other or divided by it. The main
statements are that the text of every finite number is read as a finite number, and as the
number itself if neither the significand nor the power of ten is rounded.
-/

namespace MetricQuery.Json

open Decimal (Digits WritesPoint Holds IsNearest digitsOf digitsValue digitCount splitDigits
  splitSign zeros tenTo parts positionalText scientificText shortest RoundsTo IsEncoded)
open Text (isDigit)

variable {negative : Bool} {whole fraction rest : List Char} {digits : Digits}

/-! ## The form of a number -/

/-- Digits around a point are found where they stand. -/
theorem scanNumber_point (negative : Bool) (writes : WritesPoint whole fraction digits)
    (behind : digits.exponent < 0) (ends : EndsNumber rest) :
    scanNumber negative (whole ++ '.' :: fraction ++ rest) =
      .number ⟨negative, whole, some fraction, none⟩ rest := by
  obtain ⟨before, after⟩ := List.forall_mem_append.mp writes.isDigit
  have first : splitDigits (whole ++ '.' :: (fraction ++ rest)) =
      (whole, '.' :: (fraction ++ rest)) :=
    Decimal.splitDigits_append before (by simp [isDigit])
  have second : splitDigits (fraction ++ rest) = (fraction, rest) :=
    Decimal.splitDigits_append after ends.isDigit
  have notEmpty : fraction.isEmpty = false := by
    rw [List.isEmpty_eq_false_iff]
    rintro rfl
    have places := writes.places
    simp only [List.length_nil] at places
    omega
  have found : scanFraction ⟨negative, whole, none, none⟩ ('.' :: (fraction ++ rest)) =
      .number ⟨negative, whole, some fraction, none⟩ rest := by
    simp [scanFraction, second, notEmpty, scanExponent_ends _ ends]
  rw [List.append_assoc, List.cons_append, scanNumber, first]
  simp only
  split
  · exact absurd rfl writes.some
  · rename_i c later _
    exact absurd (writes.leading rfl) (by simp)
  · exact found

/-- An exponent is found where it stands. -/
theorem scanExponent_signed (text : NumberText) (power : Int) (ends : EndsNumber rest) :
    scanExponent text ('e' :: (Decimal.signed power ++ rest)) =
      .number { text with exponent := some (decide (power < 0), digitsOf power.natAbs) } rest := by
  have digits : splitDigits (digitsOf power.natAbs ++ rest) = (digitsOf power.natAbs, rest) :=
    Decimal.splitDigits_append (fun _ => Decimal.isDigit_of_mem_digitsOf) ends.isDigit
  have notEmpty : (digitsOf power.natAbs).isEmpty = false := by
    simpa using Decimal.digitsOf_ne_nil power.natAbs
  rw [Decimal.signed]
  by_cases down : power < 0
  · simp [scanExponent, down, splitSign, digits, notEmpty]
  · simp [scanExponent, down, splitSign, digits, notEmpty]

/-- One digit, a fraction where there is one, and an exponent are found where they stand. -/
theorem scanNumber_scientific (negative : Bool) {first : Char} {later : List Char}
    (digits : ∀ c ∈ first :: later, isDigit c = true) (power : Int) (ends : EndsNumber rest) :
    scanNumber negative (first :: ((if later.isEmpty then [] else '.' :: later) ++
        'e' :: (Decimal.signed power ++ rest))) =
      .number ⟨negative, [first], if later.isEmpty then none else some later,
        some (decide (power < 0), digitsOf power.natAbs)⟩ rest := by
  obtain ⟨here, behind⟩ := List.forall_mem_cons.mp digits
  have alone : ∀ c ∈ [first], isDigit c = true := by simpa using here
  cases later with
  | nil =>
    have split : splitDigits ([first] ++ 'e' :: (Decimal.signed power ++ rest)) =
        ([first], 'e' :: (Decimal.signed power ++ rest)) :=
      Decimal.splitDigits_append alone (by simp [isDigit])
    rw [List.singleton_append] at split
    simp [scanNumber, split, scanFraction, scanExponent_signed _ power ends]
  | cons second later =>
    have split : splitDigits ([first] ++ '.' :: (second :: later ++
        'e' :: (Decimal.signed power ++ rest))) =
          ([first], '.' :: (second :: later ++ 'e' :: (Decimal.signed power ++ rest))) :=
      Decimal.splitDigits_append alone (by simp [isDigit])
    have splitLater : splitDigits (second :: later ++ 'e' :: (Decimal.signed power ++ rest)) =
        (second :: later, 'e' :: (Decimal.signed power ++ rest)) :=
      Decimal.splitDigits_append behind (by simp [isDigit])
    rw [List.singleton_append] at split
    rw [List.cons_append] at splitLater split
    simp [scanNumber, split, scanFraction, splitLater, scanExponent_signed _ power ends]

/-! ## The value of a number -/

/-- The digits before and behind a point are all added to the significand if they fit. -/
theorem addDigits_both (fits : digitsValue (whole ++ fraction) ≤ Word.largest) :
    addDigits 0 whole = (digitsValue whole, []) ∧
      addDigits (digitsValue whole) fraction = (digitsValue (whole ++ fraction), []) := by
  simp only [Decimal.digitsValue_eq, Nat.ofDigitChars_append] at fits ⊢
  exact ⟨addDigits_fitting ((le_ofDigitChars _ fraction).trans fits), addDigits_fitting fits⟩

/-- Digits around a point have the decimal that they write as their value. -/
theorem value_point (negative : Bool) (writes : WritesPoint whole fraction digits)
    (fits : digits.value ≤ Word.largest) :
    NumberText.value ⟨negative, whole, some fraction, none⟩ =
      (scale digits.value digits.exponent).map fun x => .decimal (withSign negative x) := by
  rw [← writes.value] at fits ⊢
  obtain ⟨first, second⟩ := addDigits_both fits
  simp [NumberText.value, first, second, ← writes.places]

/-- A digit, digits behind a point and a power of ten have their decimal as their value. -/
theorem value_scientific (negative : Bool) {first : Char} {later : List Char} {power : Int}
    (fits : digitsValue (first :: later) ≤ Word.largest) (small : power.natAbs ≤ largestExponent) :
    NumberText.value ⟨negative, [first], if later.isEmpty then none else some later,
        some (decide (power < 0), digitsOf power.natAbs)⟩ =
      (scale (digitsValue (first :: later)) (power - later.length)).map
        fun x => .decimal (withSign negative x) := by
  obtain ⟨alone, both⟩ := @addDigits_both [first] later fits
  have few : ¬ largestExponent < power.natAbs := Nat.not_lt.mpr small
  have total (places : Int) : (if decide (power < 0) then places - (power.natAbs : Int)
      else places + power.natAbs) = power + places := by
    split
    · rename_i down
      have sign := of_decide_eq_true down
      omega
    · rename_i notDown
      have sign := of_decide_eq_false (Bool.eq_false_iff.mpr notDown)
      omega
  cases later with
  | nil =>
    rw [NumberText.value, alone]
    simp only [List.isEmpty_nil, if_true, Decimal.digitsValue_digitsOf, if_neg few]
    rw [total]
    simp
  | cons second later =>
    rw [NumberText.value, alone]
    simp only [List.isEmpty_cons, Bool.false_eq_true, if_false, both,
      Decimal.digitsValue_digitsOf, if_neg few]
    rw [total]
    simp [sub_eq_add_neg]

/-! ## The decimal that is read -/

/-- The decimal that is read where a decimal is written with a point in every case. -/
def withPoint (digits : Digits) : Digits :=
  if 0 ≤ digits.exponent then ⟨digits.value * tenTo (digits.exponent.toNat + 1), -1⟩ else digits

/-- Whether a decimal is written positionally. -/
def isPositional (digits : Digits) : Bool :=
  numberStyle.positional (digits.exponent + digitCount digits.value)

/-- The decimal that is read where a decimal is written. -/
def asRead (digits : Digits) : Digits :=
  if isPositional digits then withPoint digits else digits

/-- A decimal as it is written. -/
def decimalText (digits : Digits) : List Char :=
  if isPositional digits then positionalText numberStyle.wholeEnding digits
  else scientificText digits

/-- The decimal that a number is written by. -/
def decimalOf (mantissa : Nat) (exponent : Int) : Digits :=
  if mantissa = 0 then ⟨0, 0⟩ else shortest numberStyle.tie mantissa exponent

/-- A finite number is written by its decimal, behind its sign. -/
theorem text_eq (negative : Bool) (mantissa : Nat) (exponent : Int) :
    numberStyle.text negative mantissa exponent =
      if negative then '-' :: decimalText (decimalOf mantissa exponent)
      else decimalText (decimalOf mantissa exponent) := by
  rw [Decimal.Style.text, decimalOf]
  by_cases zero : mantissa = 0
  · rw [if_pos zero, if_pos zero]
    rfl
  · rw [if_neg zero, if_neg zero]
    rfl

/-- The bounds that the decimal of a number keeps. -/
structure IsWritable (digits : Digits) : Prop where
  /-- Zero is written without zeros in front of it. -/
  zero : digits.value = 0 → digits.exponent = 0
  /-- All digits fit a significand. -/
  fits : digits.value ≤ 2 * 10 ^ 18
  /-- The first digit does not stand far behind the point. -/
  least : -400 ≤ digits.exponent + digitCount digits.value
  /-- The first digit does not stand far in front of the point. -/
  most : digits.exponent + digitCount digits.value ≤ 400

/-- The decimal of a number keeps the bounds. -/
theorem isWritable_decimalOf {mantissa : Nat} {exponent : Int}
    (encoded : IsEncoded mantissa exponent) : IsWritable (decimalOf mantissa exponent) := by
  rw [decimalOf]
  by_cases zero : mantissa = 0
  · rw [if_pos zero]
    exact ⟨fun _ => rfl, by decide, by decide, by decide⟩
  · have positive := Nat.pos_of_ne_zero zero
    have rounds := Decimal.shortest_roundsTo numberStyle.tie positive encoded
    have some := rounds.value_pos positive encoded
    obtain ⟨lower, upper⟩ := rounds.inRange positive encoded
    obtain ⟨least, most⟩ := Decimal.digitCount_inRange some lower upper
    rw [if_neg zero]
    exact ⟨fun none => absurd none some.ne',
      Decimal.shortest_value_le numberStyle.tie positive encoded, least, most⟩

/-- What is read for a decimal has the value of the decimal. -/
theorem toRat_asRead (digits : Digits) : (asRead digits).toRat = digits.toRat := by
  rw [asRead]
  split
  · rw [withPoint]
    split
    · rename_i whole
      obtain ⟨places, same⟩ := Int.eq_ofNat_of_zero_le whole
      have one : (10 : ℚ) ^ ((places + 1 : Nat) : ℤ) * 10 ^ (-1 : ℤ) = 10 ^ (places : ℤ) := by
        rw [← zpow_add₀ (by norm_num)]
        congr 1
        omega
      rw [Digits.toRat, Digits.toRat, same, Int.toNat_natCast, Nat.cast_mul, Decimal.cast_tenTo,
        mul_assoc, one]
    · rfl
  · rfl

/-- What is read for a decimal fits a significand. -/
theorem value_asRead_le (writable : IsWritable digits) :
    (asRead digits).value ≤ 2 * 10 ^ 18 := by
  rw [asRead]
  split
  · rename_i positional
    rw [withPoint]
    split
    · rename_i whole
      obtain ⟨places, same⟩ := Int.eq_ofNat_of_zero_le whole
      have most : digits.exponent + digitCount digits.value ≤ 16 := by
        rw [isPositional, numberStyle, Bool.and_eq_true, decide_eq_true_eq, decide_eq_true_eq]
          at positional
        exact positional.2
      rw [same, Int.toNat_natCast]
      calc digits.value * tenTo (places + 1)
          ≤ tenTo (digitCount digits.value) * tenTo (places + 1) :=
            Nat.mul_le_mul_right _ (Decimal.lt_tenTo_digitCount digits.value).le
        _ = tenTo (digitCount digits.value + (places + 1)) := (Nat.pow_add 10 _ _).symm
        _ ≤ tenTo 17 := Decimal.tenTo_le_tenTo (by omega)
        _ ≤ 2 * 10 ^ 18 := by decide
    · exact writable.fits
  · exact writable.fits

/-- A decimal in positional form is written around a point. -/
theorem writesPoint_withPoint (writable : IsWritable digits) :
    (withPoint digits).exponent < 0 ∧ ∃ whole fraction,
      positionalText numberStyle.wholeEnding digits = whole ++ '.' :: fraction ∧
        WritesPoint whole fraction (withPoint digits) := by
  obtain ⟨value, exponent⟩ := digits
  by_cases whole : 0 ≤ exponent
  · -- The zero behind the point is one more zero behind the digits.
    obtain ⟨places, rfl⟩ := Int.eq_ofNat_of_zero_le whole
    have behind : digitsOf value ++ zeros places ++ ['0'] = digitsOf value ++ zeros (places + 1) := by
      rw [zeros, zeros, List.replicate_succ', List.append_assoc]
    rw [withPoint, if_pos whole, positionalText, if_pos whole, Int.toNat_natCast]
    refine ⟨(by decide : (-1 : Int) < 0), digitsOf value ++ zeros places, ['0'], rfl, ?_, ?_, rfl,
      ?_, ?_⟩
    · simp [Decimal.digitsOf_ne_nil]
    · intro zero
      rw [List.head?_append_of_ne_nil _ (Decimal.digitsOf_ne_nil value)] at zero
      have none : value = 0 := by
        by_contra some
        exact Decimal.head?_digitsOf_ne_zero (Nat.pos_of_ne_zero some) zero
      have noPlaces : (places : Int) = 0 := writable.zero none
      rw [none, Int.natCast_eq_zero.mp noPlaces]
      rfl
    · rw [behind]
      exact List.forall_mem_append.mpr ⟨fun _ => Decimal.isDigit_of_mem_digitsOf,
        fun _ => Decimal.isDigit_of_mem_zeros⟩
    · rw [behind, Decimal.digitsValue_zeros_behind, Decimal.digitsValue_digitsOf]
  · rw [withPoint, if_neg whole]
    exact ⟨not_le.mp whole, Decimal.exists_writesPoint _ (not_le.mp whole)⟩

/-- A decimal in positional form is found with its point. -/
theorem scanNumber_positionalText (negative : Bool) (writable : IsWritable digits)
    (fits : (withPoint digits).value ≤ Word.largest) (ends : EndsNumber rest) :
    ∃ form, scanNumber negative (positionalText numberStyle.wholeEnding digits ++ rest) =
        .number form rest ∧
      form.value = (scale (withPoint digits).value (withPoint digits).exponent).map
        fun x => .decimal (withSign negative x) := by
  obtain ⟨behind, whole, fraction, text, writes⟩ := writesPoint_withPoint writable
  rw [text]
  exact ⟨_, scanNumber_point negative writes behind ends, value_point negative writes fits⟩

/-- A decimal in scientific form is found as it is. -/
theorem scanNumber_scientificText (negative : Bool) (writable : IsWritable digits)
    (ends : EndsNumber rest) :
    ∃ form, scanNumber negative (scientificText digits ++ rest) = .number form rest ∧
      form.value = (scale digits.value digits.exponent).map
        fun x => .decimal (withSign negative x) := by
  obtain ⟨first, later, written⟩ :=
    List.exists_cons_of_ne_nil (Decimal.digitsOf_ne_nil digits.value)
  have value : digitsValue (first :: later) = digits.value := by
    rw [← written, Decimal.digitsValue_digitsOf]
  have places : digitCount digits.value = later.length + 1 := congrArg List.length written
  have all : ∀ c ∈ first :: later, isDigit c = true := by
    rw [← written]
    exact fun _ => Decimal.isDigit_of_mem_digitsOf
  have text : scientificText digits ++ rest =
      first :: ((if later.isEmpty then [] else '.' :: later) ++
        'e' :: (Decimal.signed (digits.exponent + later.length) ++ rest)) := by
    simp [scientificText, written]
  have fits : digitsValue (first :: later) ≤ Word.largest :=
    value ▸ writable.fits.trans (by decide)
  have least := writable.least
  have most := writable.most
  have small : (digits.exponent + later.length).natAbs ≤ largestExponent := by
    rw [largestExponent]
    omega
  have found := value_scientific negative fits small
  rw [value, add_sub_cancel_right] at found
  rw [text]
  exact ⟨_, scanNumber_scientific negative all _ ends, found⟩

/-- What is written for a decimal is read as the decimal, with the sign in front of it. -/
theorem scan_decimalText (negative : Bool) (writable : IsWritable digits) {x : Float}
    (scaled : scale (asRead digits).value (asRead digits).exponent = .ok x)
    (ends : EndsNumber rest) :
    scan ((if negative then '-' :: decimalText digits else decimalText digits) ++ rest) =
      .number (.decimal (withSign negative x)) :: scan rest := by
  obtain ⟨form, found, valued⟩ : ∃ form,
      scanNumber negative (decimalText digits ++ rest) = .number form rest ∧
        form.value = (scale (asRead digits).value (asRead digits).exponent).map
          fun x => .decimal (withSign negative x) := by
    have fits : (asRead digits).value ≤ Word.largest := (value_asRead_le writable).trans (by decide)
    rw [asRead] at fits ⊢
    rw [decimalText]
    split
    · rename_i positional
      rw [if_pos positional] at fits
      exact scanNumber_positionalText negative writable fits ends
    · exact scanNumber_scientificText negative writable ends
  rw [scaled] at valued
  rw [← scan_number found valued]
  cases negative <;> rfl

/-! ## The number that is read -/

/-- The decimal that is read where a number is written. -/
def readDecimal (mantissa : Nat) (exponent : Int) : Digits := asRead (decimalOf mantissa exponent)

/-- The number that is read where a number is written. -/
def reread (x : Float) : Float :=
  match parts x with
  | .finite negative mantissa exponent =>
      let digits := readDecimal mantissa exponent
      match scale digits.value digits.exponent with
      | .ok y => withSign negative y
      | .error _ => x
  | _ => x

/-- The decimal that is read where a number is written is rounded to the number. -/
theorem readDecimal_roundsTo {mantissa : Nat} {exponent : Int} (positive : 0 < mantissa)
    (encoded : IsEncoded mantissa exponent) :
    RoundsTo mantissa exponent (readDecimal mantissa exponent).toRat := by
  rw [readDecimal, toRat_asRead, decimalOf, if_neg positive.ne']
  exact Decimal.shortest_roundsTo numberStyle.tie positive encoded

/-- The decimals of the five largest numbers are read as numbers, though for two of them the
number is the next one above. -/
theorem scale_largest : ∀ below < 5,
    (scale (readDecimal (2 ^ 53 - 1 - below) 971).value
      (readDecimal (2 ^ 53 - 1 - below) 971).exponent).toOption.map parts =
        some (.finite false (2 ^ 53 - 1 - below / 2 * 2) 971) := by
  decide +kernel

/-- The decimal of zero is read as zero. -/
theorem scale_readDecimal_zero (exponent : Int) :
    ∃ x, scale (readDecimal 0 exponent).value (readDecimal 0 exponent).exponent = .ok x ∧
      parts x = .finite false 0 (-1074) := by
  have zero : decimalOf 0 exponent = ⟨0, 0⟩ := if_pos rfl
  have read : asRead ⟨0, 0⟩ = ⟨0, -1⟩ := by decide +kernel
  rw [readDecimal, zero, read]
  exact ⟨_, rfl, by decide +kernel⟩

/-- The decimal of a finite number is read as a finite number. -/
theorem scale_readDecimal {mantissa : Nat} {exponent : Int}
    (encoded : IsEncoded mantissa exponent) :
    ∃ x held, scale (readDecimal mantissa exponent).value
      (readDecimal mantissa exponent).exponent = .ok x ∧ Holds x held := by
  rcases Nat.eq_zero_or_pos mantissa with rfl | positive
  · obtain ⟨x, scaled, finite⟩ := scale_readDecimal_zero exponent
    exact ⟨x, _, scaled, _, _, finite, rfl⟩
  · have rounds := readDecimal_roundsTo positive encoded
    have some := rounds.value_pos positive encoded
    have fits := value_asRead_le (isWritable_decimalOf encoded)
    by_cases largest : exponent = 971 ∧ 2 ^ 53 ≤ mantissa + 5
    · obtain ⟨rfl, close⟩ := largest
      have short := encoded.short
      obtain ⟨below, few, rfl⟩ : ∃ below < 5, mantissa = 2 ^ 53 - 1 - below :=
        ⟨2 ^ 53 - 1 - mantissa, by omega, by omega⟩
      have read := scale_largest below few
      cases scaled : scale (readDecimal (2 ^ 53 - 1 - below) 971).value
          (readDecimal (2 ^ 53 - 1 - below) 971).exponent with
      | error fault =>
        rw [scaled] at read
        exact absurd read nofun
      | ok x =>
        rw [scaled] at read
        exact ⟨x, _, rfl, _, _, Option.some.inj read, rfl⟩
    · refine scale_holds some (fits.trans (by decide)) ?_
      intro _
      exact rounds.twice_lt_limit encoded (by omega)

/-- A sign leaves the mantissa and the exponent of a finite number. -/
theorem parts_withSign (negative : Bool) {x : Float} {mantissa : Nat} {exponent : Int}
    (finite : parts x = .finite false mantissa exponent) :
    parts (withSign negative x) = .finite negative mantissa exponent := by
  have encoded := Decimal.isEncoded_of_finite finite
  cases negative with
  | false => exact finite
  | true =>
    have whole := Decimal.assemble_of_finite finite
    rw [← Decimal.encodingOf_of_isEncoded encoded] at whole
    rw [withSign, if_pos rfl, ← whole, Decimal.neg_assemble false encoded]
    exact Decimal.parts_assemble true encoded

/-- Finite numbers with the same parts are equal. -/
theorem eq_of_parts {x y : Float} {negative : Bool} {mantissa : Nat} {exponent : Int}
    (finite : parts x = .finite negative mantissa exponent)
    (finite' : parts y = .finite negative mantissa exponent) : x = y := by
  rw [← Decimal.assemble_of_finite finite, ← Decimal.assemble_of_finite finite']

/-- The number that is read for a finite number is finite and has its sign. -/
theorem exists_reread {x : Float} {negative : Bool} {mantissa : Nat} {exponent : Int}
    (finite : parts x = .finite negative mantissa exponent) :
    ∃ y, scale (readDecimal mantissa exponent).value (readDecimal mantissa exponent).exponent =
        .ok y ∧ reread x = withSign negative y ∧
      ∃ nearest place, parts (reread x) = .finite negative nearest place := by
  obtain ⟨y, _, scaled, nearest, place, magnitude, _⟩ :=
    scale_readDecimal (Decimal.isEncoded_of_finite finite)
  have same : reread x = withSign negative y := by
    simp only [reread, finite, scaled]
  exact ⟨y, scaled, same, nearest, place, same ▸ parts_withSign negative magnitude⟩

/-- The number that is read for a finite number is finite. -/
theorem isFinite_reread {x : Float} (finite : isFinite x = true) :
    isFinite (reread x) = true := by
  rw [isFinite] at finite
  split at finite
  · rename_i found
    obtain ⟨_, _, _, nearest, place, parts⟩ := exists_reread found
    rw [isFinite, parts]
  · exact absurd finite Bool.false_ne_true

/-- The text of a finite number is split off as the number that is read for it. -/
theorem scan_floatText {x : Float} (finite : isFinite x = true) (ends : EndsNumber rest) :
    scan (floatText x ++ rest) = .number (.decimal (reread x)) :: scan rest := by
  rw [isFinite] at finite
  split at finite
  · rename_i negative mantissa exponent found
    obtain ⟨y, scaled, same, _⟩ := exists_reread found
    have writable := isWritable_decimalOf (Decimal.isEncoded_of_finite found)
    rw [floatText, found, same]
    simp only
    rw [text_eq]
    exact scan_decimalText negative writable scaled ends
  · exact absurd finite Bool.false_ne_true

/-- A finite number as it is written is split off as the number that is read for it. -/
theorem splitsInto_float {x : Float} (finite : isFinite x = true) :
    SplitsInto (float x) (float (reread x)) := by
  intro rest ends
  rw [float, if_pos finite, float, if_pos (isFinite_reread finite)]
  simpa [Lexeme.write, writeNumber] using scan_floatText finite ends

/-- Whether neither the significand nor the power of ten that are read for a number is
rounded. -/
def hasShortText (x : Float) : Bool :=
  match parts x with
  | .finite _ mantissa exponent => decide (IsShort (readDecimal mantissa exponent))
  | _ => false

/-- A short decimal is read as the magnitude of the number that it is written for. -/
theorem scale_readDecimal_of_isShort {mantissa : Nat} {exponent : Int}
    (encoded : IsEncoded mantissa exponent) (short : IsShort (readDecimal mantissa exponent)) :
    ∃ y, scale (readDecimal mantissa exponent).value (readDecimal mantissa exponent).exponent =
      .ok y ∧ parts y = .finite false mantissa exponent := by
  rcases Nat.eq_zero_or_pos mantissa with rfl | positive
  · have least : exponent = -1074 := encoded.full.resolve_right (by decide)
    subst least
    exact scale_readDecimal_zero (-1074)
  · have rounds := readDecimal_roundsTo positive encoded
    have lower := (rounds.inRange positive encoded).1
    obtain ⟨y, scaled, nearest⟩ := scale_of_isShort (rounds.value_pos positive encoded) short
    have some : 0 < (readDecimal mantissa exponent).toRat :=
      lt_of_lt_of_le (by positivity) lower
    exact ⟨y, scaled, nearest.parts_eq encoded rounds some⟩

/-- A number with a short text is read as itself. -/
theorem reread_of_hasShortText {x : Float} (short : hasShortText x = true) : reread x = x := by
  rw [hasShortText] at short
  split at short
  · rename_i negative mantissa exponent found
    obtain ⟨y, scaled, finite⟩ := scale_readDecimal_of_isShort
      (Decimal.isEncoded_of_finite found) (of_decide_eq_true short)
    obtain ⟨z, scaled', same, _⟩ := exists_reread found
    rw [scaled] at scaled'
    rw [same, ← Except.ok.inj scaled']
    exact eq_of_parts (parts_withSign negative finite) found
  · exact absurd short Bool.false_ne_true

end MetricQuery.Json
