import MetricQuery.Proofs.Token.Spans

/-!
# Tokens written out again

The tokens of a text, written out one after the other with a blank between any two of
them, are read as the same tokens. Comments and the spacing of the text are gone then,
and nothing else is.

A blank ends every token, so what a token was read as does not change when a blank or
the end of the text takes the place of what followed it. Only a quoted token that is left
open goes on over blanks, and such a token is the last one, with nothing behind it in
either text.
-/

namespace MetricQuery

/-- Tokens with one blank before each of them, except before the first one. -/
def spacedOut : Bool → List Token → List Token
  | _, [] => []
  | isFirst, token :: later =>
      { token with gap := if isFirst then [] else [' '] } :: spacedOut false later

/-- Spacing tokens out changes nothing that is read off them without their gaps. -/
theorem map_spacedOut {α : Type} {read : Token → α}
    (ignores : ∀ token gap, read { token with gap := gap } = read token) (isFirst : Bool)
    (tokens : List Token) : (spacedOut isFirst tokens).map read = tokens.map read := by
  induction tokens generalizing isFirst with
  | nil => rfl
  | cons token later inductionHypothesis =>
    rw [spacedOut, List.map_cons, List.map_cons, ignores, inductionHypothesis]

/-- Placing tokens leaves their texts alone. -/
theorem texts_placed (start : Nat) (tokens : List Token) :
    (placed start tokens).map Token.text = tokens.map Token.text := by
  induction tokens generalizing start with
  | nil => rfl
  | cons token later inductionHypothesis => simp [placed, inductionHypothesis]

/-- The text of further tokens is each of their texts behind a blank. -/
theorem sourceOf_spacedOut_false (tokens : List Token) :
    sourceOf (spacedOut false tokens) = tokens.flatMap fun token => ' ' :: token.text := by
  induction tokens with
  | nil => rfl
  | cons token later inductionHypothesis =>
    rw [spacedOut, sourceOf, List.flatMap_cons, ← sourceOf, inductionHypothesis]
    rfl

/-- The text of tokens that are spaced out is their texts with single blanks between. -/
theorem sourceOf_spacedOut (tokens : List Token) :
    sourceOf (spacedOut true tokens) = [' '].intercalate (tokens.map Token.text) := by
  cases tokens with
  | nil => rfl
  | cons token later =>
    rw [spacedOut, sourceOf, List.flatMap_cons, ← sourceOf, sourceOf_spacedOut_false]
    induction later generalizing token with
    | nil => simp
    | cons next later inductionHypothesis =>
      have further := inductionHypothesis next
      simp only [List.map_cons, List.flatMap_cons, List.intercalate_cons_cons] at further ⊢
      simp [← further]

/-- Behind a token, tokens that are spaced out start with a blank if there are any. -/
theorem head?_spacedOut {tokens : List Token} {c : Char}
    (starts : (sourceOf (spacedOut false tokens)).head? = some c) : c = ' ' := by
  cases tokens with
  | nil => simp [spacedOut, sourceOf] at starts
  | cons token later => exact (Option.some.inj starts).symm

/-- Tokens that are in place are in place when they are spaced out, with nothing behind
them. -/
theorem InPlace.spacedOut {tokens : List Token} {tail : List Char} (inPlace : InPlace tokens tail)
    (isFirst : Bool) : InPlace (spacedOut isFirst tokens) [] := by
  induction tokens generalizing isFirst with
  | nil => trivial
  | cons token later inductionHypothesis =>
    obtain ⟨_, reads, laterInPlace⟩ := inPlace
    refine ⟨?_, ?_, inductionHypothesis laterInPlace false⟩
    · cases isFirst with
      | true => exact .nil
      | false => exact .blank (by decide) .nil
    · rw [List.append_nil]
      change ReadsAs token.kind token.text (sourceOf (MetricQuery.spacedOut false later))
      by_cases last : sourceOf later ++ tail = []
      · -- The last token of the text, which may be left open, has nothing behind it again.
        obtain rfl : later = [] := by
          cases later with
          | nil => rfl
          | cons next more =>
            obtain ⟨c, rest, written, _⟩ := laterInPlace.2.1.read
            simp [sourceOf, written] at last
        rwa [last] at reads
      · have ends : EndsToken (sourceOf (MetricQuery.spacedOut false later)) := by
          intro c starts
          rw [head?_spacedOut starts]
          decide
        refine reads.swap (reads.isTerminated last) (ends.offersNoMore _) ?_
        intro dash
        exact absurd (head?_spacedOut dash) (by decide)

/-- Tokens survive being written out again. The texts in the spans of the tokens of a
text, joined with single blanks, are read as tokens of the same kinds with the same
bodies, each from the same text as before. -/
theorem tokens_written_out_again (text : List Char) :
    let again := [' '].intercalate ((scan text).tokens.map fun token => token.span.text text)
    (scan again).tokens.map Token.kind = (scan text).tokens.map Token.kind ∧
      (scan again).tokens.map Token.text = (scan text).tokens.map Token.text := by
  intro again
  obtain ⟨inPlace, _, _⟩ := scan_sound text
  have texts : ((scan text).tokens.map fun token => token.span.text text) =
      (scan text).tokens.map Token.text :=
    List.map_congr_left fun token member => text_span member
  have scanned : scan again = ⟨placed 0 (spacedOut true (scan text).tokens), []⟩ := by
    have whole := scanFrom_sourceOf (inPlace.spacedOut true) rfl 0
    rwa [List.append_nil, sourceOf_spacedOut, ← texts] at whole
  rw [scanned]
  constructor
  · rw [kinds_placed, map_spacedOut fun _ _ => rfl]
  · rw [texts_placed, map_spacedOut fun _ _ => rfl]

end MetricQuery
