import MetricQuery.Decimal.Binary
import MetricQuery.Text.Letter

/-!
# Reading numbers

A number in free text is an optional sign, digits with at most one point among
them, and an optional exponent with a sign of its own. At least one digit is
needed before or after the point, and the exponent needs at least one. The
words `inf`, `infinity` and `nan` are numbers too, in any letter case. Nothing
else may stand before, between or after: blanks, digit separators and the
digits of other scripts make the text no number.

The value is the floating-point number nearest to the decimal, however many
digits it has.
-/

namespace MetricQuery.Decimal

open MetricQuery.Text (isDigit)

/-- The digits a text starts with, and what follows them. -/
def splitDigits (text : List Char) : List Char × List Char :=
  (text.takeWhile isDigit, text.dropWhile isDigit)

/-- The value of a run of decimal digits. -/
def digitsValue (digits : List Char) : Nat :=
  digits.foldl (fun value c => 10 * value + (c.toNat - '0'.toNat)) 0

/-- An optional sign and what follows it; the sign is whether the number is negative. -/
def splitSign : List Char → Bool × List Char
  | '-' :: later => (true, later)
  | '+' :: later => (false, later)
  | text => (false, text)

/-- The exponent that ends a number: nothing, or an `e` with a signed whole number. -/
def readExponent : List Char → Option Int
  | [] => some 0
  | mark :: later =>
      if mark = 'e' || mark = 'E' then
        let (negative, unsigned) := splitSign later
        let (digits, rest) := splitDigits unsigned
        if digits.isEmpty || !rest.isEmpty then none
        else
          let value := (digitsValue digits : Int)
          some (if negative then -value else value)
      else none

/-- The digits after a point, if the text starts with one, and what follows. -/
def splitFraction : List Char → List Char × List Char
  | '.' :: later => splitDigits later
  | text => ([], text)

/-- An unsigned number in digits. -/
def readMagnitude (negative : Bool) (text : List Char) : Option Float :=
  let (whole, afterWhole) := splitDigits text
  let (fraction, rest) := splitFraction afterWhole
  if whole.isEmpty && fraction.isEmpty then none
  else
    (readExponent rest).map fun exponent =>
      ofDecimal negative (digitsValue (whole ++ fraction)) (exponent - fraction.length)

/-- An unsigned number that is a word. -/
def readWord (negative : Bool) (text : List Char) : Option Float :=
  let word := text.map Char.toLower
  if word = ['n', 'a', 'n'] then some notANumber
  else if word = ['i', 'n', 'f'] || word = ['i', 'n', 'f', 'i', 'n', 'i', 't', 'y'] then
    some (assemble negative infinityBits)
  else none

/-- The number that a text writes, if it writes one. -/
def readFloat (text : List Char) : Option Float :=
  let (negative, unsigned) := splitSign text
  (readMagnitude negative unsigned).or (readWord negative unsigned)

end MetricQuery.Decimal
