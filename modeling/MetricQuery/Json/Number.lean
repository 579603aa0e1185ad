import MetricQuery.Decimal.Binary
import MetricQuery.Decimal.Reader
import MetricQuery.Json.Fault
import MetricQuery.Word

/-!
# Numbers in JSON

An integer that fits 64 bits is kept exactly. Every other number becomes a
floating-point number from a significand of at most 64 bits and a power of ten.
Digits are added to the significand as long as it does not overflow. Digits of
the whole part that no longer fit count towards the power of ten, and digits of
the fraction that no longer fit are left out.

The significand is rounded first and then multiplied or divided by one rounded
power of ten, so the result may differ from the nearest number in its last
place when both are inexact. Powers beyond the largest one are divided out in
steps. A number that leaves the finite range upwards is refused.
-/

namespace MetricQuery.Json

open Decimal (ofNat tenTo digitsValue splitDigits splitSign)

/-- A number as it was written. -/
inductive Number where
  /-- An integer that is not negative and fits 64 bits. -/
  | natural (value : Nat)
  /-- The negative of a positive integer up to two to the 63rd. -/
  | negative (value : Nat)
  /-- Any other number. -/
  | decimal (value : Float)
  deriving DecidableEq

/-- The largest exponent that is read digit by digit. -/
def largestExponent : Nat := 2147483647

/-- Add digits to a significand until it would overflow, and give back the
significand and the digits that no longer fit. -/
def addDigits : Nat → List Char → Nat × List Char
  | significand, [] => (significand, [])
  | significand, digit :: later =>
      let next := 10 * significand + (digit.toNat - '0'.toNat)
      if Word.largest < next then (significand, digit :: later) else addDigits next later

/-- Divide out powers of ten that are too large to be held, until the rest can
be divided out at once; `steps` bounds the number of rounds. -/
def divideOut : Nat → Float → Nat → Float
  | 0, x, power => x / ofNat (tenTo (min power 308))
  | steps + 1, x, power =>
      if power ≤ 308 then x / ofNat (tenTo power)
      else if x == Decimal.assemble false 0 then x
      else divideOut steps (x / ofNat (tenTo 308)) (power - 308)

/-- A significand times a power of ten, without a sign. -/
def scale (significand : Nat) (exponent : Int) : Except Fault Float :=
  let x := ofNat significand
  if exponent < 0 then .ok (divideOut 4 x exponent.natAbs)
  else if exponent ≤ 308 then
    let product := x * ofNat (tenTo exponent.toNat)
    match Decimal.parts product with
    | .infinite _ => .error .numberTooLarge
    | _ => .ok product
  else if significand = 0 then .ok x
  else .error .numberTooLarge

/-- The parts of a number as it was written. -/
structure NumberText where
  /-- Whether a minus sign comes first. -/
  negative : Bool
  /-- The digits of the whole part. -/
  whole : List Char
  /-- The digits after the point, if there is one. -/
  fraction : Option (List Char)
  /-- Whether the exponent is negative, and its digits, if there is one. -/
  exponent : Option (Bool × List Char)
  deriving DecidableEq

/-- Put the sign in front of a floating-point number. -/
def withSign (negative : Bool) (x : Float) : Float := if negative then -x else x

/-- The value of a number that was written with a whole part only and fits. -/
def wholeValue (negative : Bool) (significand : Nat) : Number :=
  if !negative then .natural significand
  else if significand = 0 || decide (Word.largestNegative < significand) then .decimal (-(ofNat significand))
  else .negative significand

/-- The value of a number as it was written. -/
def NumberText.value (text : NumberText) : Except Fault Number :=
  let (wholePart, unfit) := addDigits 0 text.whole
  let places : Int := unfit.length
  let (significand, exponent) :=
    match text.fraction with
    | none => (wholePart, places)
    | some fraction =>
        let (all, leftOut) := addDigits wholePart fraction
        (all, places - ((fraction.length : Int) - leftOut.length))
  match text.exponent with
  | none =>
      if unfit.isEmpty && text.fraction.isNone then .ok (wholeValue text.negative significand)
      else (scale significand exponent).map fun x => .decimal (withSign text.negative x)
  | some (down, digits) =>
      let power := digitsValue digits
      if largestExponent < power then
        if significand ≠ 0 ∧ down = false then .error .numberTooLarge
        else .ok (.decimal (withSign text.negative (ofNat 0)))
      else
        let total := if down then exponent - power else exponent + power
        (scale significand total).map fun x => .decimal (withSign text.negative x)

/-- A number that was read, or the faults of a text that starts like one. The
second fault is the one that is found when the value is only skipped. -/
inductive NumberScan where
  /-- A whole number and what follows it. -/
  | number (text : NumberText) (rest : List Char)
  /-- A text that starts like a number and is none. -/
  | broken (whenRead whenSkipped : Fault)
  deriving DecidableEq

/-- The fault of a missing digit: the text may be at its end there. -/
def missingDigit (rest : List Char) : NumberScan :=
  .broken (if rest.isEmpty then .endInValue else .invalidNumber) .invalidNumber

/-- Read the exponent of a number, if there is one. -/
def scanExponent (text : NumberText) : List Char → NumberScan
  | [] => .number text []
  | mark :: later =>
      if mark = 'e' || mark = 'E' then
        let (down, unsigned) := splitSign later
        let (digits, rest) := splitDigits unsigned
        if digits.isEmpty then missingDigit rest
        else .number { text with exponent := some (down, digits) } rest
      else .number text (mark :: later)

/-- Read the fraction of a number, if there is one, and its exponent. -/
def scanFraction (text : NumberText) : List Char → NumberScan
  | '.' :: later =>
      let (digits, rest) := splitDigits later
      if digits.isEmpty then missingDigit rest
      else scanExponent { text with fraction := some digits } rest
  | rest => scanExponent text rest

/-- Read a number after its sign. A zero stands alone in the whole part. -/
def scanNumber (negative : Bool) (text : List Char) : NumberScan :=
  let (whole, rest) := splitDigits text
  match whole with
  | [] => missingDigit rest
  | '0' :: _ :: _ => .broken .invalidNumber .invalidNumber
  | _ => scanFraction ⟨negative, whole, none, none⟩ rest

end MetricQuery.Json
