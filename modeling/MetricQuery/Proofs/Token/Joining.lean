import MetricQuery.Proofs.Token.Reading

/-!
# Tokens of joined texts

Two texts with a line end between them are scanned one after the other. A
comment at the end of the first text ends with the line, and the line end is a
blank, so no token of the first text can run into the second one. The exception
is again a quoted token without its closing quote, which would take the line end
and everything behind it.

The main statement is that the tokens of the joined text are those of the first
text and then those of the second one, where only the gap before the first token
of the second text is longer. It holds of a second text without tokens as well, which
leaves only more behind the tokens of the first one.
-/

namespace MetricQuery

open Text (isBlank)

/-- Whether a token is not left open at the end of its text. -/
def Token.IsTerminated (token : Token) : Prop := token.kind.IsTerminated token.text

instance : DecidablePred Token.IsTerminated := fun token =>
  inferInstanceAs (Decidable (token.kind.IsTerminated token.text))

/-- Text in which nothing is read is a gap once its last line ends, also when a
comment is open at its end. -/
theorem Gap.endLine {inComment : Bool} {tail gap : List Char}
    (none : (splitGap inComment tail).rest = []) (behind : Gap false gap) :
    Gap inComment (tail ++ '\n' :: gap) := by
  fun_induction splitGap inComment tail with
  | case1 inComment =>
    cases inComment with
    | false => exact .blank (by decide) behind
    | true => exact .ends behind
  | case2 c later inductionHypothesis =>
    have rest := inductionHypothesis none
    by_cases ends : c = '\n'
    · subst ends
      exact .ends rest
    · have goesOn : (c != '\n') = true := by simpa using ends
      rw [goesOn] at rest
      exact .inside ends rest
  | case3 later inductionHypothesis => exact .opens (inductionHypothesis none)
  | case4 c later _ blank inductionHypothesis => exact .blank blank (inductionHypothesis none)
  | case5 c later _ visible => simp at none

/-- A gap is skipped together with what is skipped behind it. -/
theorem Gap.splitGap_behind {inComment : Bool} {gap : List Char} (skipped : Gap inComment gap)
    (rest : List Char) :
    splitGap inComment (gap ++ rest) =
      ⟨gap ++ (splitGap false rest).taken, (splitGap false rest).rest⟩ := by
  induction skipped with
  | nil => rfl
  | @inside c later goesOn _ inductionHypothesis =>
    have open' : (c != '\n') = true := by simpa using goesOn
    simp [splitGap, open', inductionHypothesis, Split.cons]
  | ends _ inductionHypothesis => simp [splitGap, inductionHypothesis, Split.cons]
  | opens _ inductionHypothesis => simp [splitGap, inductionHypothesis, Split.cons]
  | blank blank _ inductionHypothesis =>
    rw [List.cons_append, splitGap_blank blank, inductionHypothesis]
    rfl

/-- A character that ends every token offers nothing behind a text, whatever comes then. -/
theorem offersNoMore_behind (tail rest : List Char) {c : Char} (ends : extendsToken c = false) :
    OffersNoMore (tail ++ c :: rest) tail := by
  have stops : EndsToken (c :: rest) := by
    rintro d ⟨⟩
    exact ends
  have before := (stops.offersNoMore []).append tail
  rwa [List.append_nil] at before

/-- A text with something else behind it starts with a character only if it does so alone. -/
theorem head?_of_behind {tail rest : List Char} {c d : Char} (other : c ≠ d)
    (starts : (tail ++ c :: rest).head? = some d) : tail.head? = some d := by
  cases tail with
  | nil => exact absurd (Option.some.inj starts) other
  | cons e tail => exact starts

/-- Tokens that are in place stay in place before further tokens, if none of them
is left open and no token can run into what comes then. -/
theorem InPlace.append {front back : List Token} {tail rest : List Char}
    (inPlace : InPlace front tail) (terminated : ∀ token ∈ front, token.IsTerminated)
    (mild : OffersNoMore (sourceOf back ++ rest) tail)
    (noDash : (sourceOf back ++ rest).head? = some '-' → tail.head? = some '-')
    (behind : InPlace back rest) : InPlace (front ++ back) rest := by
  induction front with
  | nil => exact behind
  | cons token later inductionHypothesis =>
    obtain ⟨skipped, reads, laterInPlace⟩ := inPlace
    obtain ⟨here, laterTerminated⟩ := List.forall_mem_cons.mp terminated
    have joined : sourceOf (later ++ back) ++ rest = sourceOf later ++ (sourceOf back ++ rest) := by
      simp [sourceOf]
    refine ⟨skipped, ?_, inductionHypothesis laterInPlace laterTerminated⟩
    change ReadsAs token.kind token.text (sourceOf (later ++ back) ++ rest)
    rw [joined]
    refine reads.swap here (mild.append (sourceOf later)) ?_
    intro dash _
    cases shape : sourceOf later with
    | nil => exact noDash (by simpa [shape] using dash)
    | cons c source => simpa [shape] using dash

/-- The tokens of a text and then those of another one, where the gap before the
other one takes up what was left of the first text and the line end. -/
def joinedTokens (first second : Scan) : List Token :=
  first.tokens ++
    match second.tokens with
    | [] => []
    | token :: later => { token with gap := first.tail ++ '\n' :: token.gap } :: later

/-- What a scan says about a text: its tokens are in place, and they give back the text
together with what is left behind them, in which nothing is read. -/
theorem scan_sound (text : List Char) :
    InPlace (scan text).tokens (scan text).tail ∧
      (splitGap false (scan text).tail).rest = [] ∧
      sourceOf (scan text).tokens ++ (scan text).tail = text :=
  ⟨(inPlace_scanFrom 0 text).1, (inPlace_scanFrom 0 text).2, sourceOf_scanFrom 0 text⟩

/-- The tokens of joined texts are those of the first text and then those of the
second one, if the first text leaves no token open. -/
theorem scan_joined {first second : List Char}
    (terminated : ∀ token ∈ (scan first).tokens, token.IsTerminated)
    (some : (scan second).tokens ≠ []) :
    scan (first ++ '\n' :: second) =
      ⟨placed 0 (joinedTokens (scan first) (scan second)), (scan second).tail⟩ := by
  obtain ⟨inPlace, none, firstSource⟩ := scan_sound first
  obtain ⟨behind, nothing, secondSource⟩ := scan_sound second
  obtain ⟨token, later, shape⟩ := List.exists_cons_of_ne_nil some
  rw [shape] at behind secondSource
  obtain ⟨skipped, reads, laterInPlace⟩ := behind
  -- The tokens of the second text, where the first one starts behind the first text.
  let joint : List Token := { token with gap := (scan first).tail ++ '\n' :: token.gap } :: later
  have joined : joinedTokens (scan first) (scan second) = (scan first).tokens ++ joint := by
    rw [joinedTokens, shape]
  have jointInPlace : InPlace joint (scan second).tail :=
    ⟨Gap.endLine none skipped, reads, laterInPlace⟩
  have jointSource : sourceOf joint ++ (scan second).tail =
      (scan first).tail ++ '\n' :: second := by
    conv => rhs; rw [← secondSource]
    simp [joint, sourceOf]
  have mild : OffersNoMore (sourceOf joint ++ (scan second).tail) (scan first).tail :=
    jointSource ▸ offersNoMore_behind _ _ (by decide)
  have noDash : (sourceOf joint ++ (scan second).tail).head? = Option.some '-' →
      (scan first).tail.head? = Option.some '-' :=
    jointSource ▸ head?_of_behind (by decide)
  have whole : InPlace ((scan first).tokens ++ joint) (scan second).tail :=
    inPlace.append terminated mild noDash jointInPlace
  have text : sourceOf ((scan first).tokens ++ joint) ++ (scan second).tail =
      first ++ '\n' :: second := by
    calc sourceOf ((scan first).tokens ++ joint) ++ (scan second).tail
        = sourceOf (scan first).tokens ++ (sourceOf joint ++ (scan second).tail) := by
          simp [sourceOf]
      _ = (sourceOf (scan first).tokens ++ (scan first).tail) ++ '\n' :: second := by
          rw [jointSource, List.append_assoc]
      _ = first ++ '\n' :: second := by rw [firstSource]
  have scanned := scanFrom_sourceOf whole nothing 0
  rw [text] at scanned
  rw [joined]
  exact scanned

/-- The tokens of joined texts are those of the first text and then those of the second
one, also where the second one has none. -/
theorem tokens_joined {first second : List Char}
    (terminated : ∀ token ∈ (scan first).tokens, token.IsTerminated) :
    (scan (first ++ '\n' :: second)).tokens =
      placed 0 (joinedTokens (scan first) (scan second)) := by
  cases shape : (scan second).tokens with
  | cons token later => rw [scan_joined terminated (by simp [shape])]
  | nil =>
    obtain ⟨inPlace, none, source⟩ := scan_sound first
    have nothing : (splitGap false second).rest = [] := by
      obtain ⟨_, nothing, secondSource⟩ := scan_sound second
      rw [shape] at secondSource
      rwa [← secondSource]
    have front : Gap false ((scan first).tail ++ ['\n']) := Gap.endLine none .nil
    have left : (splitGap false ((scan first).tail ++ '\n' :: second)).rest = [] := by
      have behind := front.splitGap_behind second
      rw [List.append_assoc, List.singleton_append] at behind
      rw [behind, nothing]
    have whole : InPlace ((scan first).tokens ++ []) ((scan first).tail ++ '\n' :: second) :=
      inPlace.append terminated (offersNoMore_behind _ _ (by decide))
        (head?_of_behind (by decide)) trivial
    have scanned := scanFrom_sourceOf whole left 0
    rw [List.append_nil, ← List.append_assoc, source] at scanned
    rw [joinedTokens, shape, List.append_nil, scan, scanned]

end MetricQuery
