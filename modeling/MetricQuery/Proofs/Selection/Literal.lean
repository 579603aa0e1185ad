import MetricQuery.Proofs.Query.Quotes
import MetricQuery.Selection.Statement

/-!
# Values in statements

A value of a filter is written as a literal and read back as a token. Writing
puts a backslash before the characters that need one, and reading takes the
backslashes away. The two agree on every character but one: the substitute
character U+001A is written as a backslash and a `z`, which no rule of reading
undoes, so it comes back as the letter.

A literal is one token wherever it stands, as long as no single quote follows
it. A literal without backslashes is a plain text, and any other an escaped one.
-/

namespace MetricQuery

open Text (byteLength isBlank isDigit startsWord)

namespace Statement

/-- The character as which a character of a value comes back. -/
def readBack (c : Char) : Char := if c = '\x1a' then 'z' else c

/-- A character is written after a backslash that is undone, or alone because it
means nothing special in a literal. -/
theorem escapeChar_cases (c : Char) :
    (∃ d, escapeChar c = ['\\', d] ∧ escapedChar d = readBack c) ∨
      (escapeChar c = [c] ∧ c ≠ '\\' ∧ c ≠ '\'' ∧ readBack c = c) := by
  by_cases backslash : c = '\\'
  · subst backslash
    exact .inl ⟨'\\', rfl, rfl⟩
  by_cases doubleQuote : c = '"'
  · subst doubleQuote
    exact .inl ⟨'"', rfl, rfl⟩
  by_cases singleQuote : c = '\''
  · subst singleQuote
    exact .inl ⟨'\'', rfl, rfl⟩
  by_cases zero : c = '\x00'
  · subst zero
    exact .inl ⟨'0', rfl, rfl⟩
  by_cases backspace : c = '\x08'
  · subst backspace
    exact .inl ⟨'b', rfl, rfl⟩
  by_cases tab : c = '\t'
  · subst tab
    exact .inl ⟨'t', rfl, rfl⟩
  by_cases substitute : c = '\x1a'
  · subst substitute
    exact .inl ⟨'z', rfl, rfl⟩
  by_cases lineEnd : c = '\n'
  · subst lineEnd
    exact .inl ⟨'n', rfl, rfl⟩
  by_cases lineStart : c = '\r'
  · subst lineStart
    exact .inl ⟨'r', rfl, rfl⟩
  have alone : escapeChar c = [c] := by
    simp [escapeChar, backslash, doubleQuote, singleQuote, zero, backspace, tab, substitute,
      lineEnd, lineStart]
  exact .inr ⟨alone, backslash, singleQuote, if_neg substitute⟩

/-- The escapes of a value are those of its characters in order. -/
theorem escaped_cons (c : Char) (value : List Char) :
    escaped (c :: value) = escapeChar c ++ escaped value := rfl

/-- The escaped characters of a value are read up to the closing quote. -/
theorem splitEscaped_escaped (value : List Char) {rest : List Char}
    (apart : rest.head? ≠ some '\'') :
    splitEscaped (escaped value ++ '\'' :: rest) = ⟨escaped value, true, rest⟩ := by
  induction value with
  | nil => exact splitEscaped_close apart
  | cons c value inductionHypothesis =>
    rw [escaped_cons]
    rcases escapeChar_cases c with ⟨d, written, _⟩ | ⟨written, noBackslash, noQuote, _⟩
    · simp [written, splitEscaped, inductionHypothesis, QuotedSplit.cons]
    · rw [written, List.cons_append, List.nil_append, List.cons_append,
        splitEscaped_cons noBackslash noQuote, inductionHypothesis]
      rfl

/-- A character that is neither a backslash nor a quote stands for itself. -/
theorem unescape_cons {c : Char} (noBackslash : c ≠ '\\') (noQuote : c ≠ '\'')
    (later : List Char) : unescape (c :: later) = c :: unescape later := by
  cases later with
  | nil => simp [unescape, noBackslash]
  | cons d later => simp [unescape, noBackslash, noQuote]

/-- Undoing the escapes of a value gives its characters as they come back. -/
theorem unescape_escaped (value : List Char) : unescape (escaped value) = value.map readBack := by
  induction value with
  | nil => rfl
  | cons c value inductionHypothesis =>
    rw [escaped_cons, List.map_cons]
    rcases escapeChar_cases c with ⟨d, written, undone⟩ | ⟨written, noBackslash, noQuote, same⟩
    · simp [written, unescape, inductionHypothesis, undone]
    · rw [written, List.cons_append, List.nil_append, unescape_cons noBackslash noQuote,
        inductionHypothesis, same]

/-- Without a backslash in what is written, every character was written alone. -/
theorem plain_of_escaped {value : List Char} (plain : '\\' ∉ escaped value) :
    escaped value = value ∧ '\'' ∉ value ∧ value.map readBack = value := by
  induction value with
  | nil => simp [escaped]
  | cons c value inductionHypothesis =>
    rw [escaped_cons, List.mem_append, not_or] at plain
    obtain ⟨here, behind, unquoted⟩ := inductionHypothesis plain.2
    rcases escapeChar_cases c with ⟨d, written, _⟩ | ⟨written, _, noQuote, same⟩
    · simp [written] at plain
    · refine ⟨?_, ?_, ?_⟩
      · rw [escaped_cons, written, here, List.cons_append, List.nil_append]
      · simp [behind, Ne.symm noQuote]
      · rw [List.map_cons, same, unquoted]

/-- What a literal is read as. -/
def literalKind (value : List Char) : TokenKind :=
  if '\\' ∈ escaped value then .escapedString (escaped value) else .string (escaped value)

/-- A literal is read as a whole before any text that does not go on with a quote. -/
theorem readsAs_literal (value : String) {rest : List Char} (apart : rest.head? ≠ some '\'') :
    ReadsAs (literalKind value.toList) (literal value) rest := by
  have noBlank : isBlank 'E' = false := by decide
  by_cases marked : '\\' ∈ escaped value.toList
  · have written : literal value = 'E' :: '\'' :: (escaped value.toList ++ ['\'']) := by
      simp [literal, marked]
    have word : ∀ later, lexToken 'E' later = lexWord 'E' later := fun _ => rfl
    refine ⟨by simp [written, startsVisible_cons_iff, noBlank], 'E', _, written, ?_⟩
    simp [word, lexWord_quote, splitEscaped_escaped _ apart, literalKind, marked]
  · obtain ⟨alone, unquoted, _⟩ := plain_of_escaped marked
    have unmarked : '\\' ∉ value.toList := by rwa [alone] at marked
    have written : literal value = inQuotes '\'' value.toList := by
      simp [literal, inQuotes, double_unquoted unquoted, alone, unmarked]
    have reads := readsAs_singleQuoted value.toList apart
    rw [double_unquoted unquoted] at reads
    rw [written, literalKind, if_neg marked, alone]
    exact reads

/-- The value of a literal is made of the characters as they come back. -/
theorem literalValue_literalKind {value : List Char} {token : Token}
    (same : token.kind = literalKind value) :
    literalValue [token] = value.map readBack := by
  by_cases marked : '\\' ∈ escaped value
  · simp [literalValue, same, literalKind, marked, unescape_escaped]
  · obtain ⟨alone, unquoted, unchanged⟩ := plain_of_escaped marked
    rw [alone] at marked
    simp [literalValue, same, literalKind, marked, alone, undouble_unquoted unquoted, unchanged]

/-- The characters of a value come back as they are exactly when the substitute
character is not among them. -/
theorem map_readBack_eq_iff {value : List Char} :
    value.map readBack = value ↔ '\x1a' ∉ value := by
  have here : ∀ c, readBack c = c ↔ '\x1a' ≠ c := by
    intro c
    by_cases substitute : c = '\x1a'
    · subst substitute
      simp [readBack]
    · simp [readBack, substitute, Ne.symm substitute]
  induction value with
  | nil => simp
  | cons c value inductionHypothesis => simp [here, inductionHypothesis]

/-- The token of a literal. -/
def literalToken (value : String) : Token :=
  ⟨literalKind value.toList, [], literal value, 0⟩

/-- A literal is the first token of a text in which no quote follows it. -/
theorem scan_literal_append (value : String) {rest : List Char} (apart : rest.head? ≠ some '\'') :
    let remaining := scanFrom (byteLength (literal value)) rest
    scan (literal value ++ rest) =
      ⟨literalToken value :: remaining.tokens, remaining.tail⟩ := by
  simpa [scan, literalToken, byteLength] using
    scanFrom_cons 0 Gap.nil (readsAs_literal value apart)

/-- A literal alone is one token. -/
theorem scan_literal (value : String) : scan (literal value) = ⟨[literalToken value], []⟩ := by
  have apart : ([] : List Char).head? ≠ some '\'' := by simp
  have nothing : scanFrom (byteLength (literal value)) [] = ⟨[], []⟩ := scanFrom_nil rfl
  simpa [nothing] using scan_literal_append value apart

end Statement

open Statement in
/-- Decoding a literal after encoding a value. For every value the literal is one
plain or escaped text, wherever it stands without a quote behind it, and it ends
where the literal ends. What is read is the value with each substitute character
U+001A replaced by the letter `z`, so it is the value exactly if it has none. -/
theorem literal_reads_back (value : String) :
    ∃ token : Token, token.gap = [] ∧ token.text = literal value ∧ token.start = 0 ∧
      ((∃ body, token.kind = .string body) ∨ ∃ body, token.kind = .escapedString body) ∧
      scan (literal value) = ⟨[token], []⟩ ∧
      (∀ rest : List Char, rest.head? ≠ some '\'' →
        let remaining := scanFrom (byteLength (literal value)) rest
        scan (literal value ++ rest) = ⟨token :: remaining.tokens, remaining.tail⟩) ∧
      literalValue [token] =
        value.toList.map (fun c => if c = '\x1a' then 'z' else c) ∧
      (String.ofList (literalValue [token]) = value ↔ '\x1a' ∉ value.toList) := by
  have kind : (∃ body, literalKind value.toList = .string body) ∨
      ∃ body, literalKind value.toList = .escapedString body := by
    unfold literalKind
    split
    · exact .inr ⟨_, rfl⟩
    · exact .inl ⟨_, rfl⟩
  have decoded : literalValue [literalToken value] = value.toList.map readBack :=
    literalValue_literalKind rfl
  refine ⟨literalToken value, rfl, rfl, rfl, kind, scan_literal value, ?_, decoded, ?_⟩
  · intro rest apart
    exact scan_literal_append value apart
  · rw [decoded, ← map_readBack_eq_iff, ← String.toList_inj, String.toList_ofList]

/-- A substitute character is lost: its literal is read as the letter. -/
theorem literal_of_substitute :
    ¬ ∃ token, scan (Statement.literal "\x1a") = ⟨[token], []⟩ ∧
      String.ofList (literalValue [token]) = "\x1a" := by
  rintro ⟨token, scanned, same⟩
  have decoded : literalValue [Statement.literalToken "\x1a"] = ['\x1a'].map Statement.readBack :=
    Statement.literalValue_literalKind rfl
  rw [Statement.scan_literal, Scan.mk.injEq, List.cons.injEq] at scanned
  rw [← scanned.1.1, decoded] at same
  exact absurd same (by decide)

end MetricQuery
