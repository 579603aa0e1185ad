import MetricQuery.Json.Number
import MetricQuery.Json.Text

/-!
# The words of JSON

A JSON text is a sequence of brackets, commas, colons, words, strings and
numbers, with blanks between them. What is written is such a sequence, and what
is read is split into one first, whatever it is meant to hold.

A sequence that was read may hold three kinds of words that are never written.
A string with half a surrogate pair and a number out of range are well formed,
and only reading their value fails. A broken word is the last of its sequence:
from there on nothing can be told apart. It keeps its first character and two
faults, one for a value that is read and one for a value that is skipped.
-/

namespace MetricQuery.Json

/-- A word of a JSON text. -/
inductive Lexeme where
  | openBrace
  | closeBrace
  | openBracket
  | closeBracket
  | colon
  | comma
  | null
  | boolean (value : Bool)
  | text (value : List Char)
  | number (value : Number)
  /-- A string whose characters cannot be told. -/
  | unreadableText (fault : Fault)
  /-- A number whose value cannot be told. -/
  | unreadableNumber (fault : Fault)
  /-- A word that is broken off or is none. -/
  | broken (opening : Char) (whenRead whenSkipped : Fault)
  deriving DecidableEq

/-- The characters of a number. -/
def writeNumber : Number → List Char
  | .natural value => Decimal.digitsOf value
  | .negative value => '-' :: Decimal.digitsOf value
  | .decimal value => floatText value

/-- The characters of a word. A word that is never written has none. -/
def Lexeme.write : Lexeme → List Char
  | openBrace => ['\x7b']
  | closeBrace => ['\x7d']
  | openBracket => ['[']
  | closeBracket => [']']
  | colon => [':']
  | comma => [',']
  | null => ['n', 'u', 'l', 'l']
  | boolean true => ['t', 'r', 'u', 'e']
  | boolean false => ['f', 'a', 'l', 's', 'e']
  | text value => writeText value
  | number value => writeNumber value
  | unreadableText _ | unreadableNumber _ | broken .. => []

/-- The text of a sequence of words, without blanks. -/
def render (words : List Lexeme) : String := String.ofList (words.flatMap Lexeme.write)

/-- The blanks that may stand between words. -/
def isSpace (c : Char) : Bool := c = ' ' || c = '\n' || c = '\t' || c = '\r'

/-- A word and what follows it. -/
structure Step where
  /-- The word. -/
  word : Lexeme
  /-- The text after it. -/
  rest : List Char
  deriving DecidableEq

/-- A word that must be spelled with the given letters after its first one. -/
def scanWord (opening : Char) (meant : Lexeme) : List Char → List Char → Step
  | [], rest => ⟨meant, rest⟩
  | _ :: _, [] => ⟨.broken opening .endInValue .endInValue, []⟩
  | letter :: letters, c :: rest =>
      if c = letter then scanWord opening meant letters rest
      else ⟨.broken opening .expectedWord .expectedWord, []⟩

/-- The word for a string that was found. -/
def textStep (scan : TextScan) : Step :=
  match scan.ending, joinUnits scan.ending scan.units with
  | .closed, .ok value => ⟨.text value, scan.rest⟩
  | .closed, .error fault => ⟨.unreadableText fault, scan.rest⟩
  | .broken fault _, .ok _ => ⟨.broken '"' fault fault, []⟩
  | .broken skipped _, .error fault => ⟨.broken '"' fault skipped, []⟩

/-- The word for a number that was found. -/
def numberStep (opening : Char) : NumberScan → Step
  | .broken whenRead whenSkipped => ⟨.broken opening whenRead whenSkipped, []⟩
  | .number text rest =>
      match text.value with
      | .ok value => ⟨.number value, rest⟩
      | .error fault => ⟨.unreadableNumber fault, rest⟩

/-- The word that is a single character. -/
def bracket? (c : Char) : Option Lexeme :=
  if c = '\x7b' then some .openBrace
  else if c = '\x7d' then some .closeBrace
  else if c = '[' then some .openBracket
  else if c = ']' then some .closeBracket
  else if c = ':' then some .colon
  else if c = ',' then some .comma
  else none

/-- The word that starts with a character which is no blank. -/
def scanStep (c : Char) (later : List Char) : Step :=
  match bracket? c with
  | some word => ⟨word, later⟩
  | none =>
      if c = '"' then textStep (scanText later)
      else if c = 'n' then scanWord c .null ['u', 'l', 'l'] later
      else if c = 't' then scanWord c (.boolean true) ['r', 'u', 'e'] later
      else if c = 'f' then scanWord c (.boolean false) ['a', 'l', 's', 'e'] later
      else if c = '-' then numberStep c (scanNumber true later)
      else if Text.isDigit c then numberStep c (scanNumber false (c :: later))
      else ⟨.broken c .expectedValue .expectedValue, []⟩

/-- What follows a string is no longer than what follows its opening quote. -/
theorem scanText_rest_length (text : List Char) :
    (scanText text).rest.length ≤ text.length := by
  fun_induction scanText text <;> simp_all [TextScan.cons] <;> omega

/-- Splitting off digits leaves no more than there was. -/
theorem splitDigits_rest_length (text : List Char) :
    (Decimal.splitDigits text).2.length ≤ text.length := by
  exact (List.dropWhile_suffix _).length_le

/-- Splitting off a sign leaves no more than there was. -/
theorem splitSign_rest_length (text : List Char) :
    (Decimal.splitSign text).2.length ≤ text.length := by
  unfold Decimal.splitSign
  split <;> simp

/-- What follows an exponent is no longer than what it was read from. -/
theorem scanExponent_rest_length {number found : NumberText} {text rest : List Char}
    (read : scanExponent number text = .number found rest) : rest.length ≤ text.length := by
  cases text with
  | nil => simp_all [scanExponent]
  | cons mark later =>
      have signed := splitSign_rest_length later
      have digits := splitDigits_rest_length (Decimal.splitSign later).2
      simp only [scanExponent, missingDigit] at read
      split at read
      · split at read
        · simp at read
        · simp only [NumberScan.number.injEq] at read
          rw [← read.2, List.length_cons]
          omega
      · simp_all

/-- What follows a fraction is no longer than what it was read from. -/
theorem scanFraction_rest_length {number found : NumberText} {text rest : List Char}
    (read : scanFraction number text = .number found rest) : rest.length ≤ text.length := by
  unfold scanFraction at read
  split at read
  · rename_i later
    have digits := splitDigits_rest_length later
    simp only [missingDigit] at read
    split at read
    · simp at read
    · have exponent := scanExponent_rest_length read
      simp only [List.length_cons]
      omega
  · exact scanExponent_rest_length read

/-- What follows a number is no longer than what follows its first digits. -/
theorem scanNumber_rest_length {negative : Bool} {found : NumberText} {text rest : List Char}
    (read : scanNumber negative text = .number found rest) :
    rest.length ≤ (text.dropWhile Text.isDigit).length := by
  simp only [scanNumber, Decimal.splitDigits, missingDigit] at read
  split at read
  · simp at read
  · simp at read
  · exact scanFraction_rest_length read

/-- The word for a number leaves no more than the number does. -/
theorem numberStep_rest_length (opening : Char) (scan : NumberScan) (bound : Nat)
    (shorter : ∀ text rest, scan = .number text rest → rest.length ≤ bound) :
    (numberStep opening scan).rest.length ≤ bound := by
  cases scan with
  | broken => simp [numberStep]
  | number text rest =>
      have here := shorter text rest rfl
      simp only [numberStep]
      split <;> exact here

/-- What follows a spelled word is no longer than what it was read from. -/
theorem scanWord_rest_length (opening : Char) (meant : Lexeme) (letters text : List Char) :
    (scanWord opening meant letters text).rest.length ≤ text.length := by
  induction letters generalizing text with
  | nil => simp [scanWord]
  | cons letter later hypothesis =>
      cases text with
      | nil => simp [scanWord]
      | cons c rest =>
          have shorter := hypothesis rest
          simp only [scanWord, List.length_cons]
          split
          · omega
          · simp

/-- What follows a string is no longer than what follows its opening quote. -/
theorem textStep_rest_length (later : List Char) :
    (textStep (scanText later)).rest.length ≤ later.length := by
  have shorter := scanText_rest_length later
  unfold textStep
  split <;> simp_all

/-- What follows a word is shorter than what it was read from. -/
theorem scanStep_rest_length (c : Char) (later : List Char) :
    (scanStep c later).rest.length ≤ later.length := by
  unfold scanStep
  split
  · exact Nat.le_refl _
  · split
    · exact textStep_rest_length later
    · split
      · exact scanWord_rest_length ..
      · split
        · exact scanWord_rest_length ..
        · split
          · exact scanWord_rest_length ..
          · split
            · exact numberStep_rest_length _ _ _ fun text rest read =>
                Nat.le_trans (scanNumber_rest_length read) (List.dropWhile_suffix _).length_le
            · split
              · rename_i digit
                refine numberStep_rest_length _ _ _ fun text rest read => ?_
                have shorter := scanNumber_rest_length read
                rw [List.dropWhile_cons, if_pos digit] at shorter
                exact Nat.le_trans shorter (List.dropWhile_suffix _).length_le
              · simp

/-- The words of a text. -/
def scan : List Char → List Lexeme
  | [] => []
  | c :: later =>
      if isSpace c then scan later
      else
        have _shorter := scanStep_rest_length c later
        (scanStep c later).word :: scan (scanStep c later).rest
termination_by text => text.length

end MetricQuery.Json
