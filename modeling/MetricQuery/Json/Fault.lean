import MetricQuery.Decimal.Layout
import MetricQuery.Text.Quoted

/-!
# What can be wrong with a JSON text

A JSON text is refused for one cause: its form is broken at some place, or it
is well formed but does not hold the value that was asked for. The wording of
each cause is in one function. A style of its own writes floating-point numbers
in JSON: positional from a hundred-thousandth up to ten to the sixteenth, with
a point in every whole number, and scientific outside that range.
-/

namespace MetricQuery.Json

/-- The style of floating-point numbers in JSON. -/
def numberStyle : Decimal.Style where
  tie := .even
  positional := fun places => decide (-5 < places) && decide (places ≤ 16)
  wholeEnding := ['.', '0']

/-- A floating-point number in JSON; a number that is not finite has no form and is null. -/
def floatText (x : Float) : List Char :=
  match Decimal.parts x with
  | .finite negative mantissa exponent => numberStyle.text negative mantissa exponent
  | _ => ['n', 'u', 'l', 'l']

/-- The value that was found in the place of another one. -/
inductive Found where
  | null
  | boolean (value : Bool)
  | integer (value : Int)
  | decimal (value : Float)
  | text (value : List Char)
  | sequence
  | map
  deriving DecidableEq

/-- A found value in messages. -/
def Found.describe : Found → String
  | null => "null"
  | boolean true => "boolean `true`"
  | boolean false => "boolean `false`"
  | integer value =>
      "integer `" ++ (if value < 0 then "-" else "") ++
        String.ofList (Decimal.digitsOf value.natAbs) ++ "`"
  | decimal value => "floating point `" ++ String.ofList (floatText value) ++ "`"
  | text value => "string " ++ Text.quoted value
  | sequence => "sequence"
  | map => "map"

/-- Why a JSON text was refused. -/
inductive Fault where
  /-- The text ends where a value should be. -/
  | endInValue
  /-- The text ends inside a list. -/
  | endInList
  /-- The text ends inside an object. -/
  | endInObject
  /-- The text ends inside a string. -/
  | endInText
  | expectedColon
  | expectedListEnd
  | expectedObjectEnd
  /-- A word is neither null, true nor false. -/
  | expectedWord
  | expectedValue
  | invalidEscape
  | invalidNumber
  | numberTooLarge
  | controlCharacter
  | keyNotText
  /-- Half of a surrogate pair stands where its other half should be. -/
  | loneSurrogate
  /-- The first half of a surrogate pair is not followed by an escape. -/
  | brokenPair
  | trailingComma
  | trailingCharacters
  /-- Lists and objects are nested too deeply. -/
  | tooDeep
  | wrongType (found : Found) (expected : String)
  | wrongValue (found : Found) (expected : String)
  | wrongLength (length : Nat) (expected : String)
  | unknownVariant (name : String) (known : List String)
  | missingField (name : String)
  | duplicateField (name : String)
  /-- The value is neither a number, nor a text, nor null. -/
  | noCell
  deriving DecidableEq

/-- A name between back quotes. -/
def ticked (name : String) : String := "`" ++ name ++ "`"

/-- The choice between some names in messages. -/
def choice : List String → String
  | [] => ""
  | [only] => ticked only
  | [first, second] => ticked first ++ " or " ++ ticked second
  | names => "one of " ++ String.intercalate ", " (names.map ticked)

/-- The wording of a fault. -/
def Fault.message : Fault → String
  | endInValue => "EOF while parsing a value"
  | endInList => "EOF while parsing a list"
  | endInObject => "EOF while parsing an object"
  | endInText => "EOF while parsing a string"
  | expectedColon => "expected `:`"
  | expectedListEnd => "expected `,` or `]`"
  | expectedObjectEnd => "expected `,` or `\x7d`"
  | expectedWord => "expected ident"
  | expectedValue => "expected value"
  | invalidEscape => "invalid escape"
  | invalidNumber => "invalid number"
  | numberTooLarge => "number out of range"
  | controlCharacter => "control character (\\u0000-\\u001F) found while parsing a string"
  | keyNotText => "key must be a string"
  | loneSurrogate => "lone leading surrogate in hex escape"
  | brokenPair => "unexpected end of hex escape"
  | trailingComma => "trailing comma"
  | trailingCharacters => "trailing characters"
  | tooDeep => "recursion limit exceeded"
  | wrongType found expected => "invalid type: " ++ found.describe ++ ", expected " ++ expected
  | wrongValue found expected => "invalid value: " ++ found.describe ++ ", expected " ++ expected
  | wrongLength length expected =>
      "invalid length " ++ String.ofList (Decimal.digitsOf length) ++ ", expected " ++ expected
  | unknownVariant name known =>
      "unknown variant " ++ ticked name ++ ", expected " ++ choice known
  | missingField name => "missing field " ++ ticked name
  | duplicateField name => "duplicate field " ++ ticked name
  | noCell => "data did not match any variant of untagged enum Value"

end MetricQuery.Json
