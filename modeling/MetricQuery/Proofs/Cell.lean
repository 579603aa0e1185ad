import MetricQuery.Condition
import MetricQuery.Proofs.Decimal.Reading

/-!
# Cells that show the same text

The text of a number is read as the number itself, except that a negative zero
shows as zero. No comparison tells the two zeros apart, so a number and the text
that shows it compare alike, both as numbers and as finite numbers. An empty cell
and the empty text both count as zero and are no finite number.

The main statement is that a cell satisfies a condition exactly if the text that
shows it does. Cells that show the same text therefore satisfy the same
conditions, whatever they hold.
-/

namespace MetricQuery

open Decimal (parts readFloat digitsOf)
open Float.Model (UnpackedFloat)

/-- What the comparison of two numbers finds; nothing if one of them is no number. -/
def compared (x y : Float) : Option Ordering := Float.Model.compare x.toModel y.toModel

/-- A number is less than another one if the comparison finds that. -/
theorem lt_iff_compared (x y : Float) : x < y ↔ compared x y = some .lt := by
  change Float.lt x y = true ↔ _
  rw [Float.lt, decide_eq_true_eq]
  exact beq_iff_eq

/-- A number is at most another one if the comparison finds that. -/
theorem le_iff_compared (x y : Float) : x ≤ y ↔ (compared x y).any Ordering.isLE = true := by
  change Float.le x y = true ↔ _
  rw [Float.le, decide_eq_true_eq]
  rfl

/-- Two numbers are equal if the comparison finds that. -/
theorem beq_eq_compared (x y : Float) : (x == y) = (compared x y == some .eq) := rfl

/-- Two numbers that no comparison tells apart, and that are both finite or both not. -/
structure CountsAs (x y : Float) : Prop where
  /-- No comparison with a number on the right tells them apart. -/
  left : ∀ z : Float, compared x z = compared y z
  /-- No comparison with a number on the left tells them apart. -/
  right : ∀ z : Float, compared z x = compared z y
  /-- Neither does the question whether they are finite. -/
  finite : isFinite x = isFinite y

/-- A number counts as itself. -/
theorem CountsAs.refl (x : Float) : CountsAs x x := ⟨fun _ => rfl, fun _ => rfl, rfl⟩

/-- No comparison looks at the sign of a zero. -/
theorem compare_zero (first second : UnpackedFloat.Sign) (z : UnpackedFloat) :
    UnpackedFloat.compare (.zero first) z = UnpackedFloat.compare (.zero second) z ∧
      UnpackedFloat.compare z (.zero first) = UnpackedFloat.compare z (.zero second) := by
  cases z with
  | notANumber => exact ⟨rfl, rfl⟩
  | infinity sign => cases sign <;> exact ⟨rfl, rfl⟩
  | zero sign => exact ⟨rfl, rfl⟩
  | finite sign mantissa exponent positive => cases sign <;> exact ⟨rfl, rfl⟩

/-- Zero counts as the negative zero. -/
theorem countsAs_zero : CountsAs (Decimal.assemble false 0) (Decimal.assemble true 0) where
  left z := (compare_zero .positive .negative z.toModel.unpack).1
  right z := (compare_zero .positive .negative z.toModel.unpack).2
  finite := by decide

/-- A whole number is the product of its mantissa and its power of two. -/
theorem wholeNumber?_eq_some {x : Float} {negative : Bool} {magnitude : Nat}
    (whole : wholeNumber? x = some (negative, magnitude)) :
    ∃ mantissa exponent, parts x = .finite negative mantissa exponent ∧
      (magnitude : ℚ) = mantissa * 2 ^ exponent := by
  rw [wholeNumber?] at whole
  cases shape : parts x with
  | notANumber => simp [shape] at whole
  | infinite sign => simp [shape] at whole
  | finite sign mantissa exponent =>
    simp only [shape] at whole
    by_cases up : 0 ≤ exponent
    · obtain ⟨places, rfl⟩ := Int.eq_ofNat_of_zero_le up
      rw [if_pos up, Option.some.injEq, Prod.mk.injEq] at whole
      obtain ⟨rfl, rfl⟩ := whole
      refine ⟨mantissa, places, rfl, ?_⟩
      push_cast [Decimal.cast_twoTo]
      rfl
    · obtain ⟨places, rfl⟩ : ∃ places : Nat, exponent = -places := ⟨(-exponent).toNat, by omega⟩
      rw [if_neg up] at whole
      split at whole
      · rename_i divides
        rw [Option.some.injEq, Prod.mk.injEq] at whole
        obtain ⟨rfl, rfl⟩ := whole
        have unit : (Decimal.twoTo places : ℚ) ≠ 0 := by
          exact_mod_cast (Decimal.twoTo_pos places).ne'
        have same : (-(-(places : Int))).toNat = places := by omega
        rw [same] at divides ⊢
        refine ⟨mantissa, -places, rfl, ?_⟩
        rw [Nat.cast_div (Nat.dvd_of_mod_eq_zero divides) unit, Decimal.cast_twoTo, zpow_neg,
          div_eq_mul_inv]
      · cases whole

/-- The digits of a whole number are read as the number. -/
theorem readFloat_digitsOf {x : Float} {negative : Bool} {mantissa magnitude : Nat}
    {exponent : Int} (finite : parts x = .finite negative mantissa exponent)
    (positive : 0 < mantissa) (whole : (magnitude : ℚ) = mantissa * 2 ^ exponent) :
    readFloat (if negative then '-' :: digitsOf magnitude else digitsOf magnitude) = some x := by
  have rounds : Decimal.RoundsTo mantissa exponent (Decimal.Digits.mk magnitude 0).toRat := by
    rw [Decimal.Digits.toRat, zpow_zero, mul_one, whole]
    exact .self mantissa exponent
  have same :=
    Decimal.ofDecimal_of_roundsTo negative positive (Decimal.isEncoded_of_finite finite) rounds
  apply Decimal.readFloat_of_magnitude
  rw [Decimal.readMagnitude_digits negative (Decimal.digitsOf_ne_nil _)
    fun _ => Decimal.isDigit_of_mem_digitsOf, Decimal.digitsValue_digitsOf, same,
    Decimal.assemble_of_finite finite]

/-- A number as its text shows it: a zero has no sign. -/
def unsignedZero (x : Float) : Float :=
  if x = Decimal.assemble true 0 then Decimal.assemble false 0 else x

/-- A number as its text shows it counts as the number. -/
theorem countsAs_unsignedZero (x : Float) : CountsAs (unsignedZero x) x := by
  rw [unsignedZero]
  split
  · rename_i zero
    rw [zero]
    exact countsAs_zero
  · exact .refl x

/-- Only a zero has no mantissa. -/
theorem eq_zero_of_finite {x : Float} {negative : Bool} {exponent : Int}
    (finite : parts x = .finite negative 0 exponent) : x = Decimal.assemble negative 0 := by
  have full := (Decimal.isEncoded_of_finite finite).full
  have least : exponent = -1074 := by omega
  subst least
  exact (Decimal.assemble_of_finite finite).symm

/-- A zero shows without its sign. -/
theorem unsignedZero_zero (negative : Bool) :
    unsignedZero (Decimal.assemble negative 0) = Decimal.assemble false 0 := by
  cases negative <;> decide

/-- The text of a number is read as the number, where a zero has no sign. -/
theorem readFloat_numberText (x : Float) : readFloat (numberText x) = some (unsignedZero x) := by
  have plain (nonzero : x ≠ Decimal.assemble true 0) :
      readFloat (Decimal.plainText x) = some (unsignedZero x) := by
    rw [unsignedZero, if_neg nonzero]
    exact Decimal.readFloat_plainText x
  have negativeZero : parts (Decimal.assemble true 0) = .finite true 0 (-1074) := by decide
  rw [numberText]
  split
  · rename_i negative magnitude whole
    obtain ⟨mantissa, exponent, finite, value⟩ := wholeNumber?_eq_some whole
    rcases Nat.eq_zero_or_pos mantissa with rfl | positive
    · -- Both zeros show as the same digit.
      obtain rfl : magnitude = 0 := by
        rw [Nat.cast_zero, zero_mul] at value
        exact_mod_cast value
      rw [eq_zero_of_finite finite, unsignedZero_zero]
      cases negative <;> rfl
    · have nonzero : x ≠ Decimal.assemble true 0 := by
        rintro rfl
        rw [negativeZero, Decimal.Parts.finite.injEq] at finite
        omega
      have some : magnitude ≠ 0 := by
        rintro rfl
        have product : (0 : ℚ) < mantissa * 2 ^ exponent := by positivity
        rw [← value, Nat.cast_zero] at product
        exact absurd product (lt_irrefl _)
      split
      · have signed : (negative && magnitude != 0) = negative := by simp [some]
        rw [signed, unsignedZero, if_neg nonzero]
        exact readFloat_digitsOf finite positive value
      · exact plain nonzero
  · rename_i none
    apply plain
    rintro rfl
    rw [wholeNumber?, negativeZero] at none
    simp at none

/-- No white space stands in the digits of a number. -/
theorem visible_digitsOf (n : Nat) : ∀ c ∈ digitsOf n, Text.isBlank c = false :=
  fun _ member => Text.isBlank_of_isDigit (Decimal.isDigit_of_mem_digitsOf member)

/-- No white space stands in a decimal in positional form. -/
theorem visible_positionalText (digits : Decimal.Digits) :
    ∀ c ∈ Decimal.positionalText [] digits, Text.isBlank c = false := by
  have zero (count : Nat) : ∀ c ∈ Decimal.zeros count, Text.isBlank c = false := by
    intro c member
    rw [List.eq_of_mem_replicate member]
    decide
  have point : Text.isBlank '.' = false := by decide
  have visible := visible_digitsOf digits.value
  rw [Decimal.positionalText]
  simp only
  split
  · simp only [List.append_nil, List.forall_mem_append]
    exact ⟨visible, zero _⟩
  split
  · simp only [List.forall_mem_append, List.forall_mem_cons]
    exact ⟨fun c member => visible c (List.mem_of_mem_take member), point,
      fun c member => visible c (List.mem_of_mem_drop member)⟩
  · simp only [List.forall_mem_append, List.forall_mem_cons]
    exact ⟨⟨⟨zero 1 _ (by simp [Decimal.zeros]), point, by simp⟩, zero _⟩, visible⟩

/-- A sign in front of a text is no white space. -/
theorem visible_signed {negative : Bool} {text : List Char}
    (visible : ∀ c ∈ text, Text.isBlank c = false) :
    ∀ c ∈ if negative then '-' :: text else text, Text.isBlank c = false := by
  cases negative with
  | false => exact visible
  | true => exact List.forall_mem_cons.mpr ⟨by decide, visible⟩

/-- No white space stands in the plain text of a number. -/
theorem visible_plainText (x : Float) : ∀ c ∈ Decimal.plainText x, Text.isBlank c = false := by
  have word {text : List Char} (visible : (text.all fun c => !Text.isBlank c) = true) :
      ∀ c ∈ text, Text.isBlank c = false := by
    simpa using visible
  rw [Decimal.plainText]
  split
  · exact word (by decide)
  · exact word (by decide)
  · exact word (by decide)
  · rename_i negative mantissa exponent _
    rw [Decimal.Style.text]
    apply visible_signed
    split
    · exact word (by decide)
    · exact visible_positionalText _

/-- No white space stands in the text of a number. -/
theorem visible_numberText (x : Float) : ∀ c ∈ numberText x, Text.isBlank c = false := by
  rw [numberText]
  split
  · rename_i negative magnitude _
    split
    · exact visible_signed (visible_digitsOf magnitude)
    · exact visible_plainText x
  · exact visible_plainText x

/-- The text of a number is not empty. -/
theorem numberText_ne_nil (x : Float) : numberText x ≠ [] := by
  intro nothing
  have read := readFloat_numberText x
  rw [nothing] at read
  cases read

/-- What a text counts as when it has no white space at its ends. -/
theorem textNumber_visible {text : List Char} (some : text ≠ [])
    (visible : ∀ c ∈ text, Text.isBlank c = false) :
    textNumber text = (readFloat text).getD Decimal.notANumber := by
  rw [textNumber, Text.trim_visible visible]
  cases text with
  | nil => exact absurd rfl some
  | cons c later => rfl

/-- The finite number of a text that has no white space at its ends. -/
theorem textFinite?_visible {text : List Char} (some : text ≠ [])
    (visible : ∀ c ∈ text, Text.isBlank c = false) :
    textFinite? text = (readFloat text).filter isFinite := by
  rw [textFinite?, Text.trim_visible visible]
  cases text with
  | nil => exact absurd rfl some
  | cons c later => rfl

namespace Cell

/-- The text that shows a cell counts as the number that the cell counts as. -/
theorem countsAs_display (cell : Cell) : CountsAs (textNumber cell.display) cell.toNumber := by
  cases cell with
  | number value =>
    rw [display, textNumber_visible (numberText_ne_nil value) (visible_numberText value),
      readFloat_numberText]
    exact countsAs_unsignedZero value
  | text value => exact .refl _
  | null => exact .refl _

/-- The text that shows a cell writes a finite number exactly if the cell is one, and it
counts as that number. -/
theorem textFinite?_display (cell : Cell) :
    Option.Rel CountsAs (textFinite? cell.display) cell.finite? := by
  cases cell with
  | number value =>
    have alike := countsAs_unsignedZero value
    rw [display, textFinite?_visible (numberText_ne_nil value) (visible_numberText value),
      readFloat_numberText, finite?, Option.filter_some, alike.finite]
    split
    · exact .some alike
    · exact .none
  | text value =>
    rw [display, finite?]
    cases textFinite? value.toList with
    | none => exact .none
    | some number => exact .some (.refl number)
  | null => exact .none

/-- A cell shows as the text that shows it. -/
theorem display_shown (cell : Cell) : (text cell.shown).display = cell.display :=
  String.toList_ofList

/-- A cell equals a text exactly if the text that shows the cell does. -/
theorem equals_shown (cell : Cell) (value : String) :
    (text cell.shown).equals value = cell.equals value := by
  have shown : (text cell.shown).finite? = textFinite? cell.display :=
    congrArg textFinite? cell.display_shown
  have related := cell.textFinite?_display
  rw [equals, equals, display_shown, shown]
  generalize textFinite? cell.display = left at related
  generalize cell.finite? = right at related
  cases related with
  | none => rfl
  | some alike =>
    cases textFinite? value.toList with
    | none => rfl
    | some number => simp only [beq_eq_compared, alike.left]

end Cell

/-- A cell satisfies a condition exactly if the text that shows the cell does. No condition
tells apart cells that show the same text, whether they hold a number, a text or nothing. -/
theorem Condition.holdsFor_shown (condition : Condition) (cell : Cell) :
    condition.holdsFor (.text cell.shown) = condition.holdsFor cell := by
  have alike := cell.countsAs_display
  have number : (Cell.text cell.shown).toNumber = textNumber cell.display :=
    congrArg textNumber cell.display_shown
  simp only [holdsFor, number, cell.equals_shown, cell.display_shown, lt_iff_compared,
    le_iff_compared, alike.left, alike.right]

end MetricQuery
