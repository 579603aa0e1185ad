import MetricQuery.Json.Lexeme
import MetricQuery.Proofs.Decimal.Reading

/-!
# Written words are read back

A word is found where its characters stand, and what follows it is left alone.
Only a number could reach further than it was written: digits, a point or an
exponent behind it would belong to it. In what is written a bracket, a brace or a
comma stands behind every number, so words may be put side by side without blanks.

Strings are read back for every character: each one is written as itself or as an
escape, either of which is one piece of the string and stands for the character
alone. The main statement is that the text of a sequence of words is split into
these words. Floating-point numbers may be found as others than were written, so what is
split is told apart from what is found.
-/

namespace MetricQuery.Json

open Decimal (digitsOf splitDigits)
open Text (isDigit)

/-! ## Strings -/

/-- Each hexadecimal digit has its own value. -/
theorem hexDigit?_digitChar : ∀ digit < 16, hexDigit? (Nat.digitChar digit) = some digit := by
  decide

/-- Whether a piece of a string stands for a character, whatever follows it. -/
def Unit16.StandsFor (piece : Unit16) (c : Char) : Prop :=
  ∀ ending later, joinUnits ending (piece :: later) = (joinUnits ending later).map (c :: ·)

/-- A character stands for itself. -/
theorem Unit16.standsFor_char (c : Char) : (Unit16.char c).StandsFor c :=
  fun _ _ => rfl

/-- The code of a character before all surrogates stands for the character. -/
theorem Unit16.standsFor_code {c : Char} (low : c.toNat < 0xd800) :
    (Unit16.code c.toNat).StandsFor c := by
  intro ending later
  have noTrailing : isTrailing c.toNat = false := by
    simp [isTrailing]
    omega
  have noLeading : isLeading c.toNat = false := by
    simp [isLeading]
    omega
  rw [joinUnits.eq_def]
  simp [noTrailing, noLeading]

/-- A letter escape is one piece. -/
theorem scanText_letterEscape {letter meant : Char} (known : letterEscape? letter = some meant)
    (rest : List Char) :
    scanText ('\\' :: letter :: rest) = (scanText rest).cons (.char meant) := by
  have noCode : letter ≠ 'u' := by
    rintro rfl
    simp [letterEscape?] at known
  rw [scanText.eq_6 letter rest (fun _ _ _ _ _ same _ => noCode same) noCode, known]

/-- A control character is written by its own code. -/
theorem scanText_control {c : Char} (control : c < ' ') (rest : List Char) :
    scanText ('\\' :: 'u' :: '0' :: '0' :: Nat.digitChar (c.toNat / 16) ::
      Nat.digitChar (c.toNat % 16) :: rest) = (scanText rest).cons (.code c.toNat) := by
  have small : c.toNat < 32 := control
  have high := hexDigit?_digitChar (c.toNat / 16) (by omega)
  have low := hexDigit?_digitChar (c.toNat % 16) (by omega)
  have zero : hexDigit? '0' = some 0 := rfl
  have whole : ((0 * 16 + 0) * 16 + c.toNat / 16) * 16 + c.toNat % 16 = c.toNat := by omega
  simp only [scanText, hexCode?, zero, high, low, whole]

/-- A character that needs no escape is one piece. -/
theorem scanText_plain {c : Char} (noQuote : c ≠ '"') (noBackslash : c ≠ '\\')
    (printable : ¬ c < ' ') (rest : List Char) :
    scanText (c :: rest) = (scanText rest).cons (.char c) := by
  rw [scanText.eq_7 c rest noQuote (fun same _ => noBackslash same)
    (fun _ _ _ _ _ same _ => noBackslash same) (fun _ same _ => noBackslash same)
    (fun _ _ same _ => noBackslash same), if_neg printable]

/-- A character is written by a letter, by its code, or as it is. -/
theorem escapeChar_cases (c : Char) :
    (∃ letter, letterEscape? letter = some c ∧ escapeChar c = ['\\', letter]) ∨
      (c < ' ' ∧ escapeChar c =
        ['\\', 'u', '0', '0', Nat.digitChar (c.toNat / 16), Nat.digitChar (c.toNat % 16)]) ∨
      (c ≠ '"' ∧ c ≠ '\\' ∧ ¬ c < ' ' ∧ escapeChar c = [c]) := by
  unfold escapeChar
  split
  · rename_i same
    subst same
    exact .inl ⟨'"', rfl, rfl⟩
  split
  · rename_i same
    subst same
    exact .inl ⟨'\\', rfl, rfl⟩
  split
  · rename_i same
    subst same
    exact .inl ⟨'b', rfl, rfl⟩
  split
  · rename_i same
    subst same
    exact .inl ⟨'f', rfl, rfl⟩
  split
  · rename_i same
    subst same
    exact .inl ⟨'n', rfl, rfl⟩
  split
  · rename_i same
    subst same
    exact .inl ⟨'r', rfl, rfl⟩
  split
  · rename_i same
    subst same
    exact .inl ⟨'t', rfl, rfl⟩
  split
  · rename_i control
    exact .inr (.inl ⟨control, rfl⟩)
  · rename_i noQuote noBackslash _ _ _ _ _ printable
    exact .inr (.inr ⟨noQuote, noBackslash, printable, rfl⟩)

/-- The written form of a character is one piece, which stands for the character. -/
theorem scanText_escapeChar (c : Char) (rest : List Char) :
    ∃ piece : Unit16, piece.StandsFor c ∧
      scanText (escapeChar c ++ rest) = (scanText rest).cons piece := by
  rcases escapeChar_cases c with ⟨letter, known, written⟩ | ⟨control, written⟩ |
    ⟨noQuote, noBackslash, printable, written⟩
  · rw [written]
    exact ⟨.char c, Unit16.standsFor_char c, scanText_letterEscape known rest⟩
  · have small : c.toNat < 32 := control
    rw [written]
    exact ⟨.code c.toNat, Unit16.standsFor_code (by omega), scanText_control control rest⟩
  · rw [written]
    exact ⟨.char c, Unit16.standsFor_char c, scanText_plain noQuote noBackslash printable rest⟩

/-- A string is found up to its closing quote, and its pieces stand for its characters. -/
theorem scanText_written (value rest : List Char) :
    ∃ units, scanText (value.flatMap escapeChar ++ '"' :: rest) = ⟨units, .closed, rest⟩ ∧
      joinUnits .closed units = .ok value := by
  induction value with
  | nil => exact ⟨[], rfl, rfl⟩
  | cons c later inductionHypothesis =>
    obtain ⟨units, found, joined⟩ := inductionHypothesis
    obtain ⟨piece, stands, read⟩ := scanText_escapeChar c (later.flatMap escapeChar ++ '"' :: rest)
    refine ⟨piece :: units, ?_, ?_⟩
    · rw [List.flatMap_cons, List.append_assoc, read, found]
      rfl
    · rw [stands, joined]
      rfl

/-! ## Numbers -/

/-- Whether a character behind a number would belong to it. -/
def continuesNumber (c : Char) : Bool := isDigit c || c = '.' || c = 'e' || c = 'E'

/-- Whether a text does not continue a number that stands before it. -/
def EndsNumber (rest : List Char) : Prop := ∀ c ∈ rest.head?, continuesNumber c = false

/-- What ends a number starts with no digit. -/
theorem EndsNumber.isDigit {rest : List Char} (ends : EndsNumber rest) :
    ∀ c ∈ rest.head?, isDigit c = false := by
  intro c first
  have stops := ends c first
  rw [continuesNumber, Bool.or_eq_false_iff, Bool.or_eq_false_iff, Bool.or_eq_false_iff] at stops
  exact stops.1.1.1

/-- Without an exponent behind it a number has none. -/
theorem scanExponent_ends (text : NumberText) {rest : List Char} (ends : EndsNumber rest) :
    scanExponent text rest = .number text rest := by
  cases rest with
  | nil => rfl
  | cons c rest =>
    have stops : continuesNumber c = false := ends c rfl
    have noMark : (c = 'e' || c = 'E') = false := by
      simp only [continuesNumber, Bool.or_eq_false_iff] at stops ⊢
      exact ⟨stops.1.2, stops.2⟩
    rw [scanExponent, noMark]
    rfl

/-- Without a point and an exponent behind it a number has neither. -/
theorem scanFraction_ends (text : NumberText) {rest : List Char} (ends : EndsNumber rest) :
    scanFraction text rest = .number text rest := by
  cases rest with
  | nil => rfl
  | cons c rest =>
    have noPoint : c ≠ '.' := by
      rintro rfl
      exact absurd (ends '.' rfl) (by decide)
    rw [scanFraction, scanExponent_ends text ends]
    intro _ same
    exact noPoint (List.cons.inj same).1

/-- The digits of a natural number are found where they stand. -/
theorem scanNumber_digitsOf (negative : Bool) (n : Nat) {rest : List Char}
    (ends : EndsNumber rest) :
    scanNumber negative (digitsOf n ++ rest) = .number ⟨negative, digitsOf n, none, none⟩ rest := by
  have split : splitDigits (digitsOf n ++ rest) = (digitsOf n, rest) :=
    Decimal.splitDigits_append (fun _ => Decimal.isDigit_of_mem_digitsOf) ends.isDigit
  rw [scanNumber, split]
  simp only
  split
  · rename_i none
    exact absurd none (Decimal.digitsOf_ne_nil n)
  · rename_i c later zero
    have alone := Decimal.digitsOf_of_head?_zero (zero ▸ rfl : (digitsOf n).head? = some '0')
    exact absurd (zero.symm.trans alone) (by simp)
  · exact scanFraction_ends _ ends

/-- Digits behind a significand do not make it smaller. -/
theorem le_ofDigitChars (significand : Nat) (digits : List Char) :
    significand ≤ Nat.ofDigitChars 10 digits significand := by
  induction digits generalizing significand with
  | nil => exact Nat.le_refl significand
  | cons digit later inductionHypothesis =>
    rw [Nat.ofDigitChars_cons]
    have behind := inductionHypothesis (10 * significand + (digit.toNat - '0'.toNat))
    omega

/-- Digits are added to a significand as long as all of them fit. -/
theorem addDigits_fitting {significand : Nat} {digits : List Char}
    (fits : Nat.ofDigitChars 10 digits significand ≤ Word.largest) :
    addDigits significand digits = (Nat.ofDigitChars 10 digits significand, []) := by
  induction digits generalizing significand with
  | nil => rfl
  | cons digit later inductionHypothesis =>
    rw [Nat.ofDigitChars_cons] at fits ⊢
    have here := le_ofDigitChars (10 * significand + (digit.toNat - '0'.toNat)) later
    rw [addDigits]
    simp only [Nat.not_lt.mpr (here.trans fits), if_false]
    exact inductionHypothesis fits

/-- The digits of a number that fits have the number as their value. -/
theorem value_digitsOf (negative : Bool) {n : Nat} (fits : n ≤ Word.largest) :
    NumberText.value ⟨negative, digitsOf n, none, none⟩ = .ok (wholeValue negative n) := by
  have whole : addDigits 0 (digitsOf n) = (n, []) := by
    have value : Nat.ofDigitChars 10 (digitsOf n) 0 = n := Decimal.digitsValue_digitsOf n
    have added := @addDigits_fitting 0 (digitsOf n) (by omega)
    rwa [value] at added
  simp [NumberText.value, whole]

/-! ## Sequences of words -/

/-- Whether the text of some words is split into some words before a text that does not
continue a number. -/
def SplitsInto (written found : List Lexeme) : Prop :=
  ∀ rest, EndsNumber rest → scan (written.flatMap Lexeme.write ++ rest) = found ++ scan rest

/-- Whether a sequence of words is read back before a text that does not continue a number. -/
def ReadsBack (words : List Lexeme) : Prop :=
  ∀ rest, EndsNumber rest → scan (words.flatMap Lexeme.write ++ rest) = words ++ scan rest

/-- Whether a word is read back before any text. -/
def Lexeme.IsDelimited (word : Lexeme) : Prop :=
  ∀ rest, scan (word.write ++ rest) = word :: scan rest

/-- Whether a word is a bracket, a brace, a colon or a comma. -/
def Lexeme.isPunctuation : Lexeme → Bool
  | openBrace | closeBrace | openBracket | closeBracket | colon | comma => true
  | _ => false

/-- A text that starts with no space is split into its first word and the others. -/
theorem scan_cons {c : Char} (visible : isSpace c = false) (later : List Char) :
    scan (c :: later) = (scanStep c later).word :: scan (scanStep c later).rest := by
  rw [scan, visible, if_neg Bool.false_ne_true]

/-- Punctuation is written as a character of its own, which continues no number. -/
theorem write_punctuation {word : Lexeme} (punctuation : word.isPunctuation = true) :
    ∃ c, word.write = [c] ∧ bracket? c = some word ∧ isSpace c = false ∧
      continuesNumber c = false := by
  cases word with
  | openBrace => exact ⟨'\x7b', rfl, rfl, rfl, rfl⟩
  | closeBrace => exact ⟨'\x7d', rfl, rfl, rfl, rfl⟩
  | openBracket => exact ⟨'[', rfl, rfl, rfl, rfl⟩
  | closeBracket => exact ⟨']', rfl, rfl, rfl, rfl⟩
  | colon => exact ⟨':', rfl, rfl, rfl, rfl⟩
  | comma => exact ⟨',', rfl, rfl, rfl, rfl⟩
  | _ => exact absurd punctuation Bool.false_ne_true

/-- Punctuation is read back before any text. -/
theorem isDelimited_punctuation {word : Lexeme} (punctuation : word.isPunctuation = true) :
    word.IsDelimited := by
  intro rest
  obtain ⟨c, written, known, visible, _⟩ := write_punctuation punctuation
  rw [written, List.singleton_append, scan_cons visible, scanStep, known]

/-- Punctuation continues no number. -/
theorem endsNumber_punctuation {word : Lexeme} (punctuation : word.isPunctuation = true)
    (rest : List Char) : EndsNumber (word.write ++ rest) := by
  obtain ⟨c, written, _, _, stops⟩ := write_punctuation punctuation
  rw [written]
  intro first same
  rwa [← Option.some.inj same]

/-- A string is read back before any text. -/
theorem isDelimited_text (value : List Char) : (Lexeme.text value).IsDelimited := by
  intro rest
  obtain ⟨units, found, joined⟩ := scanText_written value rest
  have quote : bracket? '"' = none := rfl
  have written : (Lexeme.text value).write ++ rest =
      '"' :: (value.flatMap escapeChar ++ '"' :: rest) := by
    simp [Lexeme.write, writeText]
  rw [written, scan_cons rfl, scanStep, quote]
  simp only [if_true, textStep, found, joined]

/-- The word null is read back before any text. -/
theorem isDelimited_null : Lexeme.null.IsDelimited := by
  intro rest
  have visible : isSpace 'n' = false := rfl
  exact scan_cons visible ('u' :: 'l' :: 'l' :: rest)

/-- A digit starts a number. -/
theorem scanStep_digit {c : Char} (digit : isDigit c = true) (later : List Char) :
    isSpace c = false ∧ scanStep c later = numberStep c (scanNumber false (c :: later)) := by
  obtain ⟨least, most⟩ := (Text.isDigit_iff c).mp digit
  rw [← Char.ofNat_toNat c]
  interval_cases c.toNat <;> exact ⟨rfl, rfl⟩

/-- A text in which a number is found starts with a digit. -/
theorem starts_of_scanNumber {negative : Bool} {text rest : List Char} {form : NumberText}
    (found : scanNumber negative text = .number form rest) :
    ∃ c later, text = c :: later ∧ isDigit c = true := by
  cases text with
  | nil => simp [scanNumber, splitDigits, missingDigit] at found
  | cons c later =>
    refine ⟨c, later, rfl, ?_⟩
    by_contra other
    have split : splitDigits (c :: later) = ([], c :: later) := by
      simp [splitDigits, other]
    simp [scanNumber, split, missingDigit] at found

/-- A number that is found behind its sign is split off with its value. -/
theorem scan_number {negative : Bool} {text rest : List Char} {form : NumberText} {value : Number}
    (found : scanNumber negative text = .number form rest) (valued : form.value = .ok value) :
    scan (if negative then '-' :: text else text) = .number value :: scan rest := by
  cases negative with
  | true =>
    have step : scanStep '-' text = numberStep '-' (scanNumber true text) := rfl
    rw [if_pos rfl, scan_cons rfl, step, found]
    simp only [numberStep, valued]
  | false =>
    obtain ⟨c, later, rfl, digit⟩ := starts_of_scanNumber found
    obtain ⟨visible, step⟩ := scanStep_digit digit later
    rw [if_neg Bool.false_ne_true, scan_cons visible, step, found]
    simp only [numberStep, valued]

/-- An integer that is not negative is read back before what does not continue it. -/
theorem readsBack_natural {n : Nat} (fits : n ≤ Word.largest) :
    ReadsBack [.number (.natural n)] := by
  intro rest ends
  have found := scan_number (scanNumber_digitsOf false n ends) (value_digitsOf false fits)
  simpa [Lexeme.write, writeNumber, wholeValue] using found

/-- A negative integer is read back before what does not continue it. -/
theorem readsBack_negative {n : Nat} (positive : 0 < n) (fits : n ≤ Word.largestNegative) :
    ReadsBack [.number (.negative n)] := by
  intro rest ends
  have fitsUnsigned : n ≤ Word.largest := fits.trans (by decide)
  have value : wholeValue true n = .negative n := by
    have some : n ≠ 0 := positive.ne'
    simp [wholeValue, some, Nat.not_lt.mpr fits]
  have found := scan_number (scanNumber_digitsOf true n ends) (value_digitsOf true fitsUnsigned)
  rw [value] at found
  simpa [Lexeme.write, writeNumber] using found

/-- Words behind a word that is read back before any text are split as without it. -/
theorem SplitsInto.cons {word : Lexeme} (delimited : word.IsDelimited)
    {written found : List Lexeme} (splits : SplitsInto written found) :
    SplitsInto (word :: written) (word :: found) := by
  intro rest ends
  rw [List.flatMap_cons, List.append_assoc, delimited, splits rest ends]
  rfl

/-- Words are split on both sides of punctuation. -/
theorem SplitsInto.append {written found : List Lexeme} (splits : SplitsInto written found)
    {word : Lexeme} (punctuation : word.isPunctuation = true) {later foundLater : List Lexeme}
    (splitsLater : SplitsInto later foundLater) :
    SplitsInto (written ++ word :: later) (found ++ word :: foundLater) := by
  intro rest ends
  have behind := SplitsInto.cons (isDelimited_punctuation punctuation) splitsLater rest ends
  rw [List.flatMap_append, List.append_assoc, splits _ ?_, behind, List.append_assoc]
  rw [List.flatMap_cons, List.append_assoc]
  exact endsNumber_punctuation punctuation _

/-- A sequence of words behind a word that is read back before any text is read back with it. -/
theorem ReadsBack.cons {word : Lexeme} (delimited : word.IsDelimited) {later : List Lexeme}
    (readsBack : ReadsBack later) : ReadsBack (word :: later) :=
  SplitsInto.cons delimited readsBack

/-- No words are read back. -/
theorem readsBack_nil : ReadsBack [] := fun _ _ => rfl

/-- A word that is read back before any text is read back. -/
theorem Lexeme.IsDelimited.readsBack {word : Lexeme} (delimited : word.IsDelimited) :
    ReadsBack [word] :=
  .cons delimited readsBack_nil

/-- The text of words is split into the words that are found before what follows them. -/
theorem scan_render {written found : List Lexeme} (splits : SplitsInto written found) :
    scan (render written).toList = found := by
  have whole := splits [] nofun
  rw [List.append_nil, scan, List.append_nil] at whole
  rwa [render, String.toList_ofList]

end MetricQuery.Json
