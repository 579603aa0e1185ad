import MetricQuery.Query
import MetricQuery.Text.Blank
import MetricQuery.Text.Letter
import MetricQuery.Word

/-!
# Commands

A line that starts with a colon is a command: a name up to the first blank, and
an argument, which is trimmed. Any other line is the text of a query. Arguments
that are numbers may start with a plus sign, and have to fit 64 bits.
-/

namespace MetricQuery.Console

/-- The text before the first blank and, if there is one, the text after it. -/
def splitBlank : List Char → List Char × Option (List Char)
  | [] => ([], none)
  | c :: later =>
      if Text.isBlank c then ([], some later)
      else
        let (before, after) := splitBlank later
        (c :: before, after)

/-- What a line asks for. -/
inductive Line where
  /-- Run the text of a query. -/
  | query (text : String)
  /-- Carry out a command. -/
  | command (name argument : String)
  deriving DecidableEq, Repr

/-- Read a line. -/
def Line.ofText (text : String) : Line :=
  match text.toList with
  | ':' :: typed =>
      let (name, argument) := splitBlank typed
      .command (String.ofList name) (String.ofList (Text.trim (argument.getD [])))
  | _ => .query text

/-- The value of a text of digits, if it is one. -/
def digitsValue? (digits : List Char) : Option Nat :=
  if digits.isEmpty || !digits.all Text.isDigit then none
  else some (digits.foldl (fun value c => 10 * value + (c.toNat - '0'.toNat)) 0)

/-- The number without a sign that an argument writes. -/
def natural? (argument : String) : Option Nat :=
  let digits :=
    match argument.toList with
    | '+' :: digits => digits
    | digits => digits
  (digitsValue? digits).filter fun value => value ≤ Word.largest

/-- The integer that an argument writes. -/
def integer? (argument : String) : Option Int :=
  match argument.toList with
  | '-' :: digits =>
      ((digitsValue? digits).filter fun value => value ≤ Word.largestNegative).map fun value => -(value : Int)
  | '+' :: digits =>
      ((digitsValue? digits).filter fun value => value ≤ Word.largestSigned).map fun value => (value : Int)
  | digits =>
      ((digitsValue? digits).filter fun value => value ≤ Word.largestSigned).map fun value => (value : Int)

/-- The comparison that a word names, in any case of ASCII letters. -/
def comparison? (word : List Char) : Option Comparison :=
  let small := word.map Char.toLower
  if small = ['='] then some .equal
  else if small = ['>'] then some .greater
  else if small = ['<'] then some .less
  else if small = ['>', '='] then some .atLeast
  else if small = ['<', '='] then some .atMost
  else if small = ['l', 'i', 'k', 'e'] then some .like
  else none

/-- The filter that an argument writes: a field, a comparison, and a value that
may be missing. Exactly one blank separates them. -/
def filter? (argument : String) : Option Condition :=
  match splitBlank argument.toList with
  | ([], _) => none
  | (_, none) => none
  | (field, some afterField) =>
      let (word, value) := splitBlank afterField
      (comparison? word).map fun comparison =>
        ⟨String.ofList field, comparison, String.ofList (Text.trim (value.getD []))⟩

end MetricQuery.Console
