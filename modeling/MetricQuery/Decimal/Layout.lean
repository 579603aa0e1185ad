import MetricQuery.Decimal.Shortest

/-!
# Decimal text

A decimal is written positionally, with zeros up to the point where its digits
do not reach, or in scientific form, with one digit before the point and the
power of ten after an `e`. A style says which of the two forms a number takes,
how a whole number ends, and how ties between shortest decimals are settled.
-/

namespace MetricQuery.Decimal

/-- The decisions that a number format makes. -/
structure Style where
  /-- Which of two equally near shortest decimals is written. -/
  tie : Tie
  /-- Whether a number with so many places before its point is written positionally. -/
  positional : Int → Bool
  /-- What follows the digits of a whole number that is written positionally. -/
  wholeEnding : List Char

/-- The decimal digits of a natural number. -/
def digitsOf (n : Nat) : List Char := Nat.toDigits 10 n

/-- A run of zeros. -/
def zeros (count : Nat) : List Char := List.replicate count '0'

/-- A decimal in positional form. -/
def positionalText (wholeEnding : List Char) (digits : Digits) : List Char :=
  let text := digitsOf digits.value
  if 0 ≤ digits.exponent then text ++ zeros digits.exponent.toNat ++ wholeEnding
  else
    let places := (-digits.exponent).toNat
    if places < text.length then
      text.take (text.length - places) ++ '.' :: text.drop (text.length - places)
    else
      ['0', '.'] ++ zeros (places - text.length) ++ text

/-- An integer with its sign always written. -/
def signed (n : Int) : List Char :=
  if n < 0 then '-' :: digitsOf n.natAbs else '+' :: digitsOf n.natAbs

/-- A decimal in scientific form. -/
def scientificText (digits : Digits) : List Char :=
  match digitsOf digits.value with
  | [] => []
  | first :: later =>
      let fraction := if later.isEmpty then [] else '.' :: later
      first :: fraction ++ 'e' :: signed (digits.exponent + later.length)

/-- A finite number in a given style. -/
def Style.text (style : Style) (negative : Bool) (mantissa : Nat) (exponent : Int) : List Char :=
  let magnitude :=
    if mantissa = 0 then '0' :: style.wholeEnding
    else
      let digits := shortest style.tie mantissa exponent
      let places := digits.exponent + (digitCount digits.value : Int)
      if style.positional places then positionalText style.wholeEnding digits
      else scientificText digits
  if negative then '-' :: magnitude else magnitude

/-- The style of plain text: always positional, and a whole number has no point. -/
def plain : Style where
  tie := .up
  positional := fun _ => true
  wholeEnding := []

/-- A number in plain text, in the words of that style where it is not finite. -/
def plainText (x : Float) : List Char :=
  match parts x with
  | .notANumber => ['N', 'a', 'N']
  | .infinite false => ['i', 'n', 'f']
  | .infinite true => ['-', 'i', 'n', 'f']
  | .finite negative mantissa exponent => plain.text negative mantissa exponent

end MetricQuery.Decimal
