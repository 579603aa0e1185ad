import MetricQuery.Proofs.Token.Layout
import MetricQuery.Proofs.Token.Spacing

/-!
# Laying out again

A layout replaces white space by white space. It takes the blanks in front of some
tokens, puts a line end and perhaps blanks there, and copies everything else. So the
tokens of a text stay, and so do all its visible characters, those of comments included.

What a layout puts in front of a token is what it would put there again. The tokens of
the text that was laid out have the same kinds, so the same tokens are chosen the second
time, and in front of each of them the line break that is found is trimmed and put back.
-/

namespace MetricQuery

open Text (isBlank trimEnd visible visible_append)

/-- A line break that a layout asks for is white space. -/
theorem LayoutState.blank_lineBreak {state : LayoutState} {kind : TokenKind} {start : List Char}
    (asked : (state.step kind).1 = some start) : ∀ c ∈ start, isBlank c = true := by
  have one : ∀ c ∈ ['\n'], isBlank c = true := List.all_eq_true.mp (by decide)
  have three : ∀ c ∈ ['\n', ' ', ' '], isBlank c = true := List.all_eq_true.mp (by decide)
  unfold LayoutState.step at asked
  grind

namespace Token

variable {token : Token} {lineBreak : Option (List Char)}

/-- A line break that is put in front of a token a second time is already there. -/
theorem breakLine_breakLine (blank : ∀ start ∈ lineBreak, ∀ c ∈ start, isBlank c = true) :
    (token.breakLine lineBreak).breakLine lineBreak = token.breakLine lineBreak := by
  cases lineBreak with
  | none => rfl
  | some start =>
    have gap : trimEnd (trimEnd token.gap ++ start) = trimEnd token.gap := by
      rw [Text.trimEnd_append_blanks _ (blank start rfl), Text.trimEnd_trimEnd]
    simp only [breakLine, gap]

/-- A line break in front of a token leaves the visible characters of its gap. -/
theorem visible_gap_breakLine (blank : ∀ start ∈ lineBreak, ∀ c ∈ start, isBlank c = true) :
    visible (token.breakLine lineBreak).gap = visible token.gap := by
  cases lineBreak with
  | none => rfl
  | some start =>
    have nothing : visible start = [] := Text.visible_blanks (blank start rfl)
    simp only [breakLine, visible_append, Text.visible_trimEnd, nothing, List.append_nil]

end Token

/-- New gaps leave the texts of tokens alone. -/
theorem texts_relaid (state : LayoutState) (tokens : List Token) :
    (relaid state tokens).map Token.text = tokens.map Token.text := by
  induction tokens generalizing state with
  | nil => rfl
  | cons token later inductionHypothesis => simp [relaid, inductionHypothesis]

/-- Tokens with the gaps that a layout gives them are given the same gaps again. -/
theorem relaid_relaid (state : LayoutState) (tokens : List Token) :
    relaid state (relaid state tokens) = relaid state tokens := by
  induction tokens generalizing state with
  | nil => rfl
  | cons token later inductionHypothesis =>
    rw [relaid, relaid, Token.kind_breakLine, inductionHypothesis,
      Token.breakLine_breakLine fun _ => LayoutState.blank_lineBreak]

/-- A layout does not depend on the places of tokens. -/
theorem layoutTokens_placed (state : LayoutState) (start : Nat) (tokens : List Token) :
    layoutTokens state (placed start tokens) = layoutTokens state tokens := by
  induction tokens generalizing state start with
  | nil => rfl
  | cons token later inductionHypothesis =>
    simp only [placed, layoutTokens, inductionHypothesis]

/-- New gaps leave every visible character of the text of tokens. -/
theorem visible_relaid (state : LayoutState) (tokens : List Token) :
    visible (sourceOf (relaid state tokens)) = visible (sourceOf tokens) := by
  induction tokens generalizing state with
  | nil => rfl
  | cons token later inductionHypothesis =>
    simp only [sourceOf] at inductionHypothesis
    simp only [relaid, sourceOf, List.flatMap_cons, visible_append, Token.text_breakLine,
      Token.visible_gap_breakLine fun _ => LayoutState.blank_lineBreak, inductionHypothesis]

/-- Laying out a text changes only its white space. The text that was laid out has tokens
of the same kinds with the same bodies, each from the same text as before, and the same
visible characters, and it is laid out already. -/
theorem layout_changes_white_space (text : List Char) :
    (scan (layout text)).tokens.map Token.kind = (scan text).tokens.map Token.kind ∧
      (scan (layout text)).tokens.map Token.text = (scan text).tokens.map Token.text ∧
      visible (layout text) = visible text ∧ layout (layout text) = layout text := by
  refine ⟨kinds_layout text, ?texts, ?visible, ?again⟩
  case texts => rw [scan_layout, texts_placed, texts_relaid]
  case visible =>
    calc visible (layout text)
        = visible (sourceOf (relaid {} (scan text).tokens) ++ (scan text).tail) := by
          rw [layout, layoutTokens_eq_sourceOf]
      _ = visible (sourceOf (scan text).tokens ++ (scan text).tail) := by
          rw [visible_append, visible_relaid, ← visible_append]
      _ = visible text := congrArg visible (scan_sound text).2.2
  case again =>
    calc layout (layout text)
        = layoutTokens {} (relaid {} (scan text).tokens) ++ (scan text).tail := by
          rw [layout, scan_layout, layoutTokens_placed]
      _ = sourceOf (relaid {} (scan text).tokens) ++ (scan text).tail := by
          rw [layoutTokens_eq_sourceOf, relaid_relaid]
      _ = layout text := by rw [layout, layoutTokens_eq_sourceOf]

/-- Blanks at the ends of comments go, and nothing of a comment or a quoted text that is seen. -/
example : layout "SELECT '  FROM' --  a  \n\t WHERE(b AND c)>1 AND d=2".toList =
    "SELECT '  FROM' --  a\nWHERE(b AND c)>1\n  AND d=2".toList := by decide +kernel

end MetricQuery
