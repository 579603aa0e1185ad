import MetricQuery.Decimal.Layout
import MetricQuery.Decimal.Reader
import MetricQuery.SortedMap
import MetricQuery.Text.Blank

/-!
# Cells and rows

A cell holds a number, a text or nothing, and a row maps field names to cells.
Cells are read in three ways. As text, a whole number of moderate size shows
without a point and an empty cell shows as the empty text. As a number, blank
text and empty cells count as zero, and text that writes no number counts as
the value that is no number. As a finite number, all of those are left out.
-/

namespace MetricQuery

open Decimal (Parts parts)

/-- The content of one field of one row. -/
inductive Cell where
  /-- A floating-point number. -/
  | number (value : Float)
  /-- A text. -/
  | text (value : String)
  /-- No content. -/
  | null
  deriving DecidableEq

/-- A row of a table: its fields and their cells. -/
abbrev Row := SortedMap Cell

/-- Whether a number is neither infinite nor the value that is no number. -/
def isFinite (x : Float) : Bool :=
  match parts x with
  | .finite .. => true
  | _ => false

/-- The integer that a finite number is equal to and its sign, if it is whole. -/
def wholeNumber? (x : Float) : Option (Bool × Nat) :=
  match parts x with
  | .finite negative mantissa exponent =>
      if 0 ≤ exponent then some (negative, mantissa * Decimal.twoTo exponent.toNat)
      else
        let unit := Decimal.twoTo (-exponent).toNat
        if mantissa % unit = 0 then some (negative, mantissa / unit) else none
  | _ => none

/-- The text of a number: a whole number below ten to the fifteenth is written
as an integer, where zero has no sign, and any other number in plain decimal text. -/
def numberText (x : Float) : List Char :=
  match wholeNumber? x with
  | some (negative, magnitude) =>
      if magnitude < Decimal.tenTo 15 then
        if negative && magnitude != 0 then '-' :: Decimal.digitsOf magnitude
        else Decimal.digitsOf magnitude
      else Decimal.plainText x
  | none => Decimal.plainText x

/-- The number that a text counts as: zero if it is blank, and the value that is
no number if it writes none. -/
def textNumber (text : List Char) : Float :=
  match Text.trim text with
  | [] => Decimal.assemble false 0
  | visible => (Decimal.readFloat visible).getD Decimal.notANumber

/-- The finite number that a text writes, if it writes one. -/
def textFinite? (text : List Char) : Option Float :=
  match Text.trim text with
  | [] => none
  | visible => (Decimal.readFloat visible).filter isFinite

namespace Cell

/-- The text that shows a cell. -/
def display : Cell → List Char
  | number value => numberText value
  | text value => value.toList
  | null => []

/-- The text that shows a cell, as a string. -/
def shown (cell : Cell) : String := String.ofList cell.display

/-- The number that a cell counts as in a comparison. -/
def toNumber : Cell → Float
  | number value => value
  | text value => textNumber value.toList
  | null => Decimal.assemble false 0

/-- The number that a cell adds to an aggregation, if it is a finite number. -/
def finite? : Cell → Option Float
  | number value => if isFinite value then some value else none
  | text value => textFinite? value.toList
  | null => none

/-- A finite number as a cell, and no content for any other. -/
def ofFinite (value : Float) : Cell := if isFinite value then number value else null

end Cell

end MetricQuery
