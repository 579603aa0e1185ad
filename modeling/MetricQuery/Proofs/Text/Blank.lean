import MetricQuery.Text.Blank
import MetricQuery.Text.Letter

/-!
# White space at the ends of texts

Trimming a text removes characters from its ends only, so what is left starts
with the character that the text starts with, unless that is white space. A text
without white space, such as one of digits, stays as it is.

Trimming the end takes all the white space there, so there is nothing left to take a
second time, and the visible characters of a text stay as they are.
-/

namespace MetricQuery.Text

/-- A digit is one of the ten between zero and nine. -/
theorem isDigit_iff (c : Char) : isDigit c = true ↔ 48 ≤ c.toNat ∧ c.toNat ≤ 57 := by
  rw [isDigit, Bool.and_eq_true, decide_eq_true_eq, decide_eq_true_eq]
  rfl

/-- A digit is not white space. -/
theorem isBlank_of_isDigit {c : Char} (digit : isDigit c = true) : isBlank c = false := by
  obtain ⟨fromZero, toNine⟩ := (isDigit_iff c).mp digit
  simp only [isBlank, whiteSpace, CharClass.contains, within]
  repeat rw [if_neg (by omega)]
  rw [if_pos (by omega)]
  rfl

/-- Trimming a text in front of a character. -/
theorem trimEnd_cons (c : Char) (later : List Char) :
    trimEnd (c :: later) =
      if trimEnd later = [] ∧ isBlank c = true then [] else c :: trimEnd later := by
  rw [trimEnd]
  split
  · rename_i nothing
    by_cases blank : isBlank c = true <;> simp [blank, nothing]
  · rename_i kept
    have some : ¬ (trimEnd later = [] ∧ isBlank c = true) := fun nothing => kept nothing.1
    rw [if_neg some]

/-- What is left of a trimmed text starts with the character that the text starts with. -/
theorem head?_of_trimEnd {c : Char} {text : List Char} (starts : (trimEnd text).head? = some c) :
    text.head? = some c := by
  cases text with
  | nil => exact starts
  | cons d later =>
    rw [trimEnd_cons] at starts
    split at starts
    · simp at starts
    · exact starts

/-- A text without white space is not trimmed at its end. -/
theorem trimEnd_visible {text : List Char} (visible : ∀ c ∈ text, isBlank c = false) :
    trimEnd text = text := by
  induction text with
  | nil => rfl
  | cons c later inductionHypothesis =>
    obtain ⟨first, others⟩ := List.forall_mem_cons.mp visible
    rw [trimEnd_cons, inductionHypothesis others, if_neg (by simp [first])]

/-- A text without white space is not trimmed. -/
theorem trim_visible {text : List Char} (visible : ∀ c ∈ text, isBlank c = false) :
    trim text = text := by
  have start : trimStart text = text := by
    cases text with
    | nil => rfl
    | cons c later => exact List.dropWhile_cons_of_neg (by simp [visible c])
  rw [trim, start, trimEnd_visible visible]

/-- White space behind a text is trimmed with what the text ends with. -/
theorem trimEnd_append_blanks (text : List Char) {blanks : List Char}
    (blank : ∀ c ∈ blanks, isBlank c = true) : trimEnd (text ++ blanks) = trimEnd text := by
  induction text with
  | nil =>
    rw [List.nil_append]
    induction blanks with
    | nil => rfl
    | cons c later inductionHypothesis =>
      obtain ⟨here, behind⟩ := List.forall_mem_cons.mp blank
      rw [trimEnd_cons, inductionHypothesis behind, if_pos ⟨rfl, here⟩]
      rfl
  | cons c later inductionHypothesis =>
    rw [List.cons_append, trimEnd_cons, trimEnd_cons, inductionHypothesis]

/-- A text is what trimming its end leaves, with white space behind it. -/
theorem exists_trimEnd_append (text : List Char) :
    ∃ blanks, text = trimEnd text ++ blanks ∧ ∀ c ∈ blanks, isBlank c = true := by
  induction text with
  | nil => exact ⟨[], rfl, fun _ member => absurd member List.not_mem_nil⟩
  | cons c later inductionHypothesis =>
    obtain ⟨blanks, split, blank⟩ := inductionHypothesis
    rw [trimEnd_cons]
    by_cases gone : trimEnd later = [] ∧ isBlank c = true
    · have rest : later = blanks := by rwa [gone.1, List.nil_append] at split
      rw [if_pos gone, rest]
      exact ⟨c :: blanks, rfl, List.forall_mem_cons.mpr ⟨gone.2, blank⟩⟩
    · rw [if_neg gone]
      exact ⟨blanks, congrArg (c :: ·) split, blank⟩

/-- A text that was trimmed at its end is not trimmed again. -/
theorem trimEnd_trimEnd (text : List Char) : trimEnd (trimEnd text) = trimEnd text := by
  obtain ⟨blanks, split, blank⟩ := exists_trimEnd_append text
  calc trimEnd (trimEnd text) = trimEnd (trimEnd text ++ blanks) :=
        (trimEnd_append_blanks _ blank).symm
    _ = trimEnd text := by rw [← split]

/-- The characters of a text that are not white space. -/
def visible (text : List Char) : List Char := text.filter fun c => !isBlank c

/-- The visible characters of two texts in a row are those of both. -/
theorem visible_append (first second : List Char) :
    visible (first ++ second) = visible first ++ visible second :=
  List.filter_append first second

/-- In white space nothing is visible. -/
theorem visible_blanks {blanks : List Char} (blank : ∀ c ∈ blanks, isBlank c = true) :
    visible blanks = [] := by
  rw [visible, List.filter_eq_nil_iff]
  intro c member
  simp [blank c member]

/-- Trimming leaves every visible character. -/
theorem visible_trimEnd (text : List Char) : visible (trimEnd text) = visible text := by
  obtain ⟨blanks, split, blank⟩ := exists_trimEnd_append text
  conv => rhs; rw [split, visible_append, visible_blanks blank, List.append_nil]

end MetricQuery.Text
