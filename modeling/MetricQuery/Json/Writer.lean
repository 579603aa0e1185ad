import MetricQuery.Json.Lexeme
import MetricQuery.Cell

/-!
# Writing values

A value is written as a sequence of words. Objects keep the order of their
members, and nothing is written between the words. A floating-point number that
is not finite has no form of its own and is written as null.
-/

namespace MetricQuery.Json

/-- Sequences of words with commas between them. -/
def separated : List (List Lexeme) → List Lexeme
  | [] => []
  | [only] => only
  | first :: later => first ++ .comma :: separated later

/-- A list. -/
def list (elements : List (List Lexeme)) : List Lexeme :=
  .openBracket :: separated elements ++ [.closeBracket]

/-- A member of an object. -/
def member (key : String) (value : List Lexeme) : List Lexeme :=
  .text key.toList :: .colon :: value

/-- An object. -/
def object (members : List (List Lexeme)) : List Lexeme :=
  .openBrace :: separated members ++ [.closeBrace]

/-- A string. -/
def string (value : String) : List Lexeme := [.text value.toList]

/-- An integer. -/
def integer (value : Int) : List Lexeme :=
  if value < 0 then [.number (.negative value.natAbs)] else [.number (.natural value.toNat)]

/-- A floating-point number. -/
def float (value : Float) : List Lexeme :=
  if isFinite value then [.number (.decimal value)] else [.null]

/-- A map, in the order of its keys. -/
def mapOf {α : Type} (write : α → List Lexeme) (map : SortedMap α) : List Lexeme :=
  object (map.entries.map fun entry => member entry.1 (write entry.2))

end MetricQuery.Json
