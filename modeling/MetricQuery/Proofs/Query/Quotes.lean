import MetricQuery.Proofs.Token.Reading
import MetricQuery.Query.Reading

/-!
# Doubled quotes

A text of any characters can stand between two quotes of one kind if every such
quote inside of it is doubled. The closing quote is then found behind the text,
and making one quote of every doubled one gives the text back.
-/

namespace MetricQuery

/-- Write every quote of one kind twice. -/
def double (quote : Char) (text : List Char) : List Char :=
  text.flatMap fun c => if c = quote then [quote, quote] else [c]

/-- A text between quotes, with the quotes in it doubled. -/
def inQuotes (quote : Char) (text : List Char) : List Char :=
  quote :: (double quote text ++ [quote])

variable {quote : Char}

/-- A quote in front is doubled. -/
theorem double_quote (text : List Char) :
    double quote (quote :: text) = quote :: quote :: double quote text := by
  simp [double]

/-- Any other character in front stays alone. -/
theorem double_cons {c : Char} (different : c ≠ quote) (text : List Char) :
    double quote (c :: text) = c :: double quote text := by
  simp [double, different]

/-- A text without quotes stays as it is. -/
theorem double_unquoted {text : List Char} (unquoted : quote ∉ text) :
    double quote text = text := by
  induction text with
  | nil => rfl
  | cons c text inductionHypothesis =>
    simp only [List.mem_cons, not_or] at unquoted
    rw [double_cons (Ne.symm unquoted.1), inductionHypothesis unquoted.2]

/-- Doubled quotes are read up to the closing quote. -/
theorem splitQuoted_double (text : List Char) {rest : List Char} (apart : rest.head? ≠ some quote) :
    splitQuoted quote (double quote text ++ quote :: rest) = ⟨double quote text, true, rest⟩ := by
  induction text with
  | nil => exact splitQuoted_close apart
  | cons c text inductionHypothesis =>
    by_cases same : c = quote
    · subst same
      simp [double_quote, splitQuoted, inductionHypothesis, QuotedSplit.cons]
    · rw [double_cons same, List.cons_append, splitQuoted_cons same, inductionHypothesis]
      rfl

/-- A character that is no quote stands for itself. -/
theorem undouble_cons {c : Char} (different : c ≠ quote) (later : List Char) :
    undouble quote (c :: later) = c :: undouble quote later := by
  cases later with
  | nil => rfl
  | cons d later => simp [undouble, different]

/-- Making one quote of the doubled ones gives back the text. -/
theorem undouble_double (quote : Char) (text : List Char) :
    undouble quote (double quote text) = text := by
  induction text with
  | nil => rfl
  | cons c text inductionHypothesis =>
    by_cases same : c = quote
    · subst same
      simp [double_quote, undouble, inductionHypothesis]
    · rw [double_cons same, undouble_cons same, inductionHypothesis]

/-- A text without quotes has no doubled ones. -/
theorem undouble_unquoted {text : List Char} (unquoted : quote ∉ text) :
    undouble quote text = text := by
  have same := undouble_double quote text
  rwa [double_unquoted unquoted] at same

/-- A text between single or double quotes is read as one token. -/
theorem readsAs_inQuotes {kindOf : List Char → TokenKind} (visible : Text.isBlank quote = false)
    (noDash : quote ≠ '-') (opens : ∀ later, lexToken quote later = lexQuoted quote kindOf later)
    (text : List Char) {rest : List Char} (apart : rest.head? ≠ some quote) :
    ReadsAs (kindOf (double quote text)) (inQuotes quote text) rest := by
  refine ⟨?_, quote, _, rfl, ?_⟩
  · rw [inQuotes, List.cons_append, startsVisible_cons_iff]
    exact ⟨visible, fun dash => noDash dash.1⟩
  · rw [opens, lexQuoted, List.append_assoc, List.singleton_append, splitQuoted_double text apart]
    rfl

/-- A name in double quotes is read as one token. -/
theorem readsAs_doubleQuoted (name : List Char) {rest : List Char}
    (apart : rest.head? ≠ some '"') :
    ReadsAs (.quotedName (double '"' name)) (inQuotes '"' name) rest :=
  readsAs_inQuotes (by decide) (by decide) (fun _ => rfl) name apart

/-- A value in single quotes is read as one token. -/
theorem readsAs_singleQuoted (value : List Char) {rest : List Char}
    (apart : rest.head? ≠ some '\'') :
    ReadsAs (.string (double '\'' value)) (inQuotes '\'' value) rest :=
  readsAs_inQuotes (by decide) (by decide) (fun _ => rfl) value apart

end MetricQuery
