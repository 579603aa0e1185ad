import MetricQuery.Proofs.Text.Blank
import MetricQuery.Proofs.Token.Reading
import MetricQuery.Token.Layout

/-!
# Layout keeps tokens

Laying out a text changes the gaps before some tokens and nothing else. A gap
that gives way to a line break is still a gap, also when it holds comments,
whose line ends are replaced by the break. A token in front of a changed gap is
read as before, because no token can run into a gap.

The main statement is that the tokens of a text that was laid out are those of
the text, with the gaps that the layout gave them.
-/

namespace MetricQuery

open Text (isBlank isDigit continuesWord trimEnd trimEnd_cons head?_of_trimEnd)

/-- A gap whose end gives way to a line break is a gap. -/
theorem Gap.trimEnd_break {inComment : Bool} {gap pad : List Char} (skipped : Gap inComment gap)
    (blank : Gap false pad) : Gap inComment (trimEnd gap ++ '\n' :: pad) := by
  induction skipped with
  | nil => exact .blank (by decide) blank
  | @inside c later goesOn _ inductionHypothesis =>
    rw [trimEnd_cons]
    split
    · exact .ends blank
    · exact .inside goesOn inductionHypothesis
  | @ends later _ inductionHypothesis =>
    rw [trimEnd_cons]
    split
    · exact .ends blank
    · exact .ends inductionHypothesis
  | @opens later _ inductionHypothesis =>
    have visible : isBlank '-' = false := by decide
    rw [trimEnd_cons, trimEnd_cons]
    simp only [visible, Bool.false_eq_true, and_false, if_false]
    exact .opens inductionHypothesis
  | @blank c later here _ inductionHypothesis =>
    rw [trimEnd_cons]
    split
    · exact .blank (by decide) blank
    · exact .blank here inductionHypothesis

/-- No token can run into a gap. -/
theorem Gap.endsToken {gap : List Char} (skipped : Gap false gap) (some : gap ≠ [])
    (rest : List Char) : EndsToken (gap ++ rest) := by
  intro c starts
  cases skipped with
  | nil => exact absurd rfl some
  | opens =>
    have same : '-' = c := by simpa using starts
    subst same
    decide
  | @blank d later here =>
    have same : d = c := by simpa using starts
    subst same
    exact extendsToken_of_isBlank here

/-- A token with the line break before it that a layout asks for. -/
def Token.breakLine (token : Token) : Option (List Char) → Token
  | some start => { token with gap := trimEnd token.gap ++ start }
  | none => token

/-- The tokens of a text with the gaps that a layout gives them. -/
def relaid : LayoutState → List Token → List Token
  | _, [] => []
  | state, token :: later =>
      token.breakLine (state.step token.kind).1 :: relaid (state.step token.kind).2 later

/-- A token with a line break before it keeps its kind. -/
@[simp] theorem Token.kind_breakLine (token : Token) (lineBreak : Option (List Char)) :
    (token.breakLine lineBreak).kind = token.kind := by
  cases lineBreak <;> rfl

/-- A token with a line break before it keeps its text. -/
@[simp] theorem Token.text_breakLine (token : Token) (lineBreak : Option (List Char)) :
    (token.breakLine lineBreak).text = token.text := by
  cases lineBreak <;> rfl

/-- Laying out tokens is writing them with their new gaps. -/
theorem layoutTokens_eq_sourceOf (state : LayoutState) (tokens : List Token) :
    layoutTokens state tokens = sourceOf (relaid state tokens) := by
  induction tokens generalizing state with
  | nil => rfl
  | cons token later inductionHypothesis =>
    simp only [layoutTokens, inductionHypothesis, relaid, sourceOf, List.flatMap_cons,
      Token.text_breakLine]
    congr 2
    cases (state.step token.kind).1 <;> rfl

/-- New gaps leave the kinds of tokens alone. -/
theorem kinds_relaid (state : LayoutState) (tokens : List Token) :
    (relaid state tokens).map Token.kind = tokens.map Token.kind := by
  induction tokens generalizing state with
  | nil => rfl
  | cons token later inductionHypothesis => simp [relaid, inductionHypothesis]

/-- A line break that a layout asks for is a line end and blanks behind it. -/
theorem LayoutState.step_lineBreak {state : LayoutState} {kind : TokenKind} {start : List Char}
    (asked : (state.step kind).1 = some start) : ∃ pad, start = '\n' :: pad ∧ Gap false pad := by
  have none : Gap false [] := .nil
  have two : Gap false [' ', ' '] := .blank (by decide) (.blank (by decide) .nil)
  unfold LayoutState.step at asked
  grind

/-- A gap with a line break in its place is a gap. -/
theorem Gap.breakLine {token : Token} (skipped : Gap false token.gap) (state : LayoutState) :
    Gap false (token.breakLine (state.step token.kind).1).gap := by
  cases asked : (state.step token.kind).1 with
  | none => exact skipped
  | some start =>
    obtain ⟨pad, rfl, blank⟩ := LayoutState.step_lineBreak asked
    exact skipped.trimEnd_break blank

/-- A text in front of which tokens have new gaps offers a token no more than the
text with the old gaps. -/
theorem relaid_offersNoMore {tokens : List Token} {tail : List Char} (inPlace : InPlace tokens tail)
    (state : LayoutState) :
    OffersNoMore (sourceOf (relaid state tokens) ++ tail) (sourceOf tokens ++ tail) := by
  induction tokens generalizing state with
  | nil => exact .refl _
  | cons token later inductionHypothesis =>
    obtain ⟨skipped, _, laterInPlace⟩ := inPlace
    have behind := inductionHypothesis laterInPlace (state.step token.kind).2
    simp only [relaid, sourceOf, List.flatMap_cons, Token.text_breakLine] at behind ⊢
    cases asked : (state.step token.kind).1 with
    | none => simpa [Token.breakLine] using behind.append (token.gap ++ token.text)
    | some start =>
      have broken : Gap false (token.breakLine (some start)).gap := asked ▸ skipped.breakLine state
      obtain ⟨pad, rfl, _⟩ := LayoutState.step_lineBreak asked
      simp only [List.append_assoc]
      exact (broken.endsToken (by simp [Token.breakLine]) _).offersNoMore _

/-- A dash stands at the start of a text with new gaps only if it stood there before. -/
theorem relaid_dash {tokens : List Token} {tail : List Char} (inPlace : InPlace tokens tail)
    (state : LayoutState) (dash : (sourceOf (relaid state tokens) ++ tail).head? = some '-') :
    (sourceOf tokens ++ tail).head? = some '-' := by
  cases tokens with
  | nil => exact dash
  | cons token later =>
    obtain ⟨c, rest, written, _⟩ := inPlace.2.1.read
    simp only [relaid, sourceOf, List.flatMap_cons, Token.text_breakLine, written] at dash ⊢
    cases asked : (state.step token.kind).1 with
    | none =>
      cases shape : token.gap <;> simp_all [Token.breakLine]
    | some start =>
      obtain ⟨pad, rfl, _⟩ := LayoutState.step_lineBreak asked
      have kept : (trimEnd token.gap).head? = some '-' := by
        cases shape : trimEnd token.gap <;> simp_all [Token.breakLine]
      have before : token.gap.head? = some '-' := head?_of_trimEnd kept
      simp [List.head?_append, before]

/-- Tokens stay in place when a layout gives them new gaps. -/
theorem InPlace.relaid {tokens : List Token} {tail : List Char} (inPlace : InPlace tokens tail)
    (state : LayoutState) : InPlace (relaid state tokens) tail := by
  induction tokens generalizing state with
  | nil => trivial
  | cons token later inductionHypothesis =>
    obtain ⟨skipped, reads, laterInPlace⟩ := inPlace
    have behind := inductionHypothesis laterInPlace (state.step token.kind).2
    refine ⟨skipped.breakLine state, ?_, behind⟩
    rw [Token.kind_breakLine, Token.text_breakLine]
    cases later with
    | nil => exact reads
    | cons next more =>
      obtain ⟨c, rest, written, _⟩ := laterInPlace.2.1.read
      have followed : sourceOf (next :: more) ++ tail ≠ [] := by simp [sourceOf, written]
      exact reads.swap (reads.isTerminated followed) (relaid_offersNoMore laterInPlace _)
        (fun dash _ => relaid_dash laterInPlace _ dash)

/-- The tokens of a text that was laid out are the tokens of the text with new gaps. -/
theorem scan_layout (text : List Char) :
    scan (layout text) = ⟨placed 0 (relaid {} (scan text).tokens), (scan text).tail⟩ := by
  obtain ⟨inPlace, none⟩ := inPlace_scanFrom 0 text
  rw [layout, layoutTokens_eq_sourceOf]
  exact scanFrom_sourceOf (inPlace.relaid {}) none 0

/-- Laying out a text changes no kind of a token. -/
theorem kinds_layout (text : List Char) :
    (scan (layout text)).tokens.map Token.kind = (scan text).tokens.map Token.kind := by
  rw [scan_layout, kinds_placed, kinds_relaid]

end MetricQuery
