import MetricQuery.Proofs.Token.Boundary

/-!
# Texts and the tokens they are read as

Scanning goes from a text to its tokens. This module describes the way back: a
list of tokens, each with its gap and its text, is *in place* before a text when
every gap is skipped as a whole and every token text is read as the token's kind
where it stands. The text of tokens that are in place is scanned into these
tokens, and the tokens of every scan are in place.

So to know the tokens of a text it is enough to write the text as tokens in
place, and a change to a text that leaves its tokens in place changes no token.
-/

namespace MetricQuery

open Text (byteLength isBlank)

/-- Text that is skipped as a whole: white space and comments with their line
ends. A comment may be open at its start, and none is at its end. -/
inductive Gap : Bool → List Char → Prop where
  | nil : Gap false []
  | inside {c : Char} {later : List Char} (goesOn : c ≠ '\n') (rest : Gap true later) :
      Gap true (c :: later)
  | ends {later : List Char} (rest : Gap false later) : Gap true ('\n' :: later)
  | opens {later : List Char} (rest : Gap true later) : Gap false ('-' :: '-' :: later)
  | blank {c : Char} {later : List Char} (blank : isBlank c = true) (rest : Gap false later) :
      Gap false (c :: later)

/-- Whether nothing is skipped at the start of a text. -/
def startsVisible : List Char → Bool
  | [] => true
  | '-' :: '-' :: _ => false
  | c :: _ => !isBlank c

/-- Nothing is skipped before a visible start. -/
theorem splitGap_visible {text : List Char} (visible : startsVisible text = true) :
    splitGap false text = ⟨[], text⟩ := by
  unfold startsVisible at visible
  split at visible
  · rfl
  · simp at visible
  · rename_i c later noComment
    unfold splitGap
    split <;> simp_all

/-- A blank is skipped together with the gap behind it. -/
theorem splitGap_blank {c : Char} (blank : isBlank c = true) (later : List Char) :
    splitGap false (c :: later) = (splitGap false later).cons c := by
  have noDash : c ≠ '-' := by
    rintro rfl
    exact absurd blank (by decide)
  rw [splitGap]
  · simp [blank]
  · intro _ dash _
    exact noDash dash

/-- A gap before a visible start is skipped exactly. -/
theorem Gap.splitGap_append {inComment : Bool} {gap rest : List Char} (skipped : Gap inComment gap)
    (visible : startsVisible rest = true) :
    splitGap inComment (gap ++ rest) = ⟨gap, rest⟩ := by
  induction skipped with
  | nil => exact splitGap_visible visible
  | @inside c later goesOn _ inductionHypothesis =>
    have open' : (c != '\n') = true := by simpa using goesOn
    simp [splitGap, open', inductionHypothesis, Split.cons]
  | ends _ inductionHypothesis => simp [splitGap, inductionHypothesis, Split.cons]
  | opens _ inductionHypothesis => simp [splitGap, inductionHypothesis, Split.cons]
  | blank blank _ inductionHypothesis =>
    rw [List.cons_append, splitGap_blank blank, inductionHypothesis]
    rfl

/-- What is skipped before a remaining text is a gap, and the remaining text is visible. -/
theorem gap_of_splitGap {inComment : Bool} {text : List Char}
    (more : (splitGap inComment text).rest ≠ []) :
    Gap inComment (splitGap inComment text).taken ∧
      startsVisible (splitGap inComment text).rest = true := by
  fun_induction splitGap inComment text with
  | case1 => simp at more
  | case2 c later inductionHypothesis =>
    obtain ⟨skipped, visible⟩ := inductionHypothesis more
    refine ⟨?_, visible⟩
    by_cases ends : c = '\n'
    · subst ends
      exact .ends skipped
    · have goesOn : (c != '\n') = true := by simpa using ends
      rw [goesOn] at skipped
      rw [goesOn]
      exact .inside ends skipped
  | case3 later inductionHypothesis =>
    obtain ⟨skipped, visible⟩ := inductionHypothesis more
    exact ⟨.opens skipped, visible⟩
  | case4 c later _ blank inductionHypothesis =>
    obtain ⟨skipped, visible⟩ := inductionHypothesis more
    exact ⟨.blank blank skipped, visible⟩
  | case5 c later noComment visible =>
    refine ⟨.nil, ?_⟩
    unfold startsVisible
    split <;> simp_all

/-- A text that is read as a token of a kind where it stands before another text. -/
structure ReadsAs (kind : TokenKind) (text rest : List Char) : Prop where
  /-- No part of the text is skipped. -/
  visible : startsVisible (text ++ rest) = true
  /-- The text is read as a whole, and nothing behind it. -/
  read : ∃ c tail, text = c :: tail ∧ lexToken c (tail ++ rest) = ⟨kind, tail, rest⟩

/-- What starts visibly is neither a blank nor the sign of a comment. -/
theorem startsVisible_cons_iff {c : Char} {later : List Char} :
    startsVisible (c :: later) = true ↔
      isBlank c = false ∧ ¬ (c = '-' ∧ later.head? = some '-') := by
  unfold startsVisible
  split
  · simp_all
  · rename_i comment
    simp only [List.cons.injEq] at comment
    obtain ⟨rfl, rfl⟩ := comment
    simp
  · rename_i d behind noComment same
    simp only [List.cons.injEq] at same
    obtain ⟨rfl, rfl⟩ := same
    have apart : ¬ (c = '-' ∧ later.head? = some '-') := by
      rintro ⟨rfl, dash⟩
      obtain ⟨behind, rfl⟩ := List.head?_eq_some_iff.mp dash
      exact noComment behind rfl rfl
    simp [apart]

/-- A token that something follows is not left open. -/
theorem ReadsAs.isTerminated {kind : TokenKind} {text rest : List Char}
    (reads : ReadsAs kind text rest) (followed : rest ≠ []) : kind.IsTerminated text := by
  obtain ⟨c, tail, rfl, read⟩ := reads.read
  exact lexToken_isTerminated read followed

/-- A token that is not left open is read in the same way before a text that
offers no more and does not complete the sign of a comment. -/
theorem ReadsAs.swap {kind : TokenKind} {text rest other : List Char}
    (reads : ReadsAs kind text rest) (terminated : kind.IsTerminated text)
    (mild : OffersNoMore other rest)
    (noComment : other.head? = some '-' → text = ['-'] → rest.head? = some '-') :
    ReadsAs kind text other := by
  obtain ⟨c, tail, rfl, read⟩ := reads.read
  refine ⟨?_, c, tail, rfl, lexToken_swap read terminated mild⟩
  have visible := reads.visible
  simp only [List.cons_append, startsVisible_cons_iff] at visible ⊢
  refine ⟨visible.1, ?_⟩
  rintro ⟨rfl, dash⟩
  cases tail with
  | nil => exact visible.2 ⟨rfl, noComment dash rfl⟩
  | cons d tail => exact visible.2 ⟨rfl, dash⟩

/-- The text that some tokens were read from. -/
def sourceOf (tokens : List Token) : List Char :=
  tokens.flatMap fun token => token.gap ++ token.text

/-- Tokens that are in place before a text. -/
def InPlace : List Token → List Char → Prop
  | [], _ => True
  | token :: later, rest =>
      Gap false token.gap ∧ ReadsAs token.kind token.text (sourceOf later ++ rest) ∧
        InPlace later rest

/-- Tokens in front of tokens that are in place. -/
theorem InPlace.concat {front back : List Token} {rest : List Char}
    (inPlace : InPlace front (sourceOf back ++ rest)) (behind : InPlace back rest) :
    InPlace (front ++ back) rest := by
  induction front with
  | nil => exact behind
  | cons token later inductionHypothesis =>
    obtain ⟨skipped, reads, laterInPlace⟩ := inPlace
    have joint : sourceOf (later ++ back) ++ rest = sourceOf later ++ (sourceOf back ++ rest) := by
      simp [sourceOf]
    exact ⟨skipped, joint ▸ reads, inductionHypothesis laterInPlace⟩

/-- Tokens with their places counted from a byte on. -/
def placed : Nat → List Token → List Token
  | _, [] => []
  | start, token :: later =>
      let here := start + byteLength token.gap
      { token with start := here } :: placed (here + byteLength token.text) later

/-- Placing tokens leaves their kinds alone. -/
theorem kinds_placed (start : Nat) (tokens : List Token) :
    (placed start tokens).map Token.kind = tokens.map Token.kind := by
  induction tokens generalizing start with
  | nil => rfl
  | cons token later inductionHypothesis => simp [placed, inductionHypothesis]

/-- A text without tokens is left as it is. -/
theorem scanFrom_nil {start : Nat} {text : List Char} (none : (splitGap false text).rest = []) :
    scanFrom start text = ⟨[], text⟩ := by
  rw [scanFrom]
  split
  · rfl
  · rename_i ahead
    simp [none] at ahead

/-- A scan reads one token and goes on behind it. -/
theorem scanFrom_step {start : Nat} {text gap tail rest later : List Char} {c : Char}
    {kind : TokenKind} (skipped : splitGap false text = ⟨gap, c :: later⟩)
    (read : lexToken c later = ⟨kind, tail, rest⟩) :
    let here := start + byteLength gap
    let remaining := scanFrom (here + byteLength (c :: tail)) rest
    scanFrom start text = ⟨⟨kind, gap, c :: tail, here⟩ :: remaining.tokens, remaining.tail⟩ := by
  rw [scanFrom]
  split
  · rename_i ahead
    simp [skipped] at ahead
  · rename_i d behind ahead
    have same : d = c ∧ behind = later := by simpa [skipped, eq_comm] using ahead
    obtain ⟨rfl, rfl⟩ := same
    simp only [skipped, read]

/-- A gap and a token are the first token of a scan. -/
theorem scanFrom_cons (start : Nat) {kind : TokenKind} {gap text rest : List Char}
    (skipped : Gap false gap) (reads : ReadsAs kind text rest) :
    let here := start + byteLength gap
    let remaining := scanFrom (here + byteLength text) rest
    scanFrom start (gap ++ (text ++ rest)) =
      ⟨⟨kind, gap, text, here⟩ :: remaining.tokens, remaining.tail⟩ := by
  obtain ⟨c, tail, rfl, read⟩ := reads.read
  exact scanFrom_step (skipped.splitGap_append reads.visible) read

/-- The text of tokens that are in place is scanned into these tokens. -/
theorem scanFrom_sourceOf {tokens : List Token} {tail : List Char} (inPlace : InPlace tokens tail)
    (none : (splitGap false tail).rest = []) (start : Nat) :
    scanFrom start (sourceOf tokens ++ tail) = ⟨placed start tokens, tail⟩ := by
  induction tokens generalizing start with
  | nil => exact scanFrom_nil none
  | cons token later inductionHypothesis =>
    obtain ⟨skipped, reads, laterInPlace⟩ := inPlace
    have split : sourceOf (token :: later) ++ tail =
        token.gap ++ (token.text ++ (sourceOf later ++ tail)) := by
      simp [sourceOf]
    rw [split, scanFrom_cons start skipped reads, inductionHypothesis laterInPlace]
    rfl

/-- The tokens of a scan give back the whole text. -/
theorem sourceOf_scanFrom (start : Nat) (text : List Char) :
    sourceOf (scanFrom start text).tokens ++ (scanFrom start text).tail = text := by
  fun_induction scanFrom start text with
  | case1 => rfl
  | case2 start text c later ahead _shorter gap lexeme token remaining inductionHypothesis =>
    have whole : gap ++ c :: later = text := ahead ▸ splitGap_append false text
    have behind : lexeme.tail ++ lexeme.rest = later := lexToken_append c later
    calc sourceOf (token :: remaining.tokens) ++ remaining.tail
        = gap ++ c :: (lexeme.tail ++ (sourceOf remaining.tokens ++ remaining.tail)) := by
          simp [sourceOf, token]
      _ = text := by rw [inductionHypothesis, behind, whole]

/-- The tokens of a scan are in place, and nothing is read behind them. -/
theorem inPlace_scanFrom (start : Nat) (text : List Char) :
    InPlace (scanFrom start text).tokens (scanFrom start text).tail ∧
      (splitGap false (scanFrom start text).tail).rest = [] := by
  fun_induction scanFrom start text with
  | case1 start text ahead => exact ⟨trivial, ahead⟩
  | case2 start text c later ahead _shorter gap lexeme token remaining inductionHypothesis =>
    obtain ⟨laterInPlace, none⟩ := inductionHypothesis
    have more : (splitGap false text).rest ≠ [] := by simp [ahead]
    obtain ⟨skipped, visible⟩ := gap_of_splitGap more
    have behind : lexeme.tail ++ lexeme.rest = later := lexToken_append c later
    have left : sourceOf remaining.tokens ++ remaining.tail = lexeme.rest :=
      sourceOf_scanFrom _ lexeme.rest
    have reads : ReadsAs token.kind token.text (sourceOf remaining.tokens ++ remaining.tail) := by
      rw [left]
      refine ⟨?_, c, lexeme.tail, rfl, ?_⟩
      · change startsVisible (c :: (lexeme.tail ++ lexeme.rest)) = true
        rw [behind, ← ahead]
        exact visible
      · rw [behind]
    exact ⟨⟨skipped, reads, laterInPlace⟩, none⟩

end MetricQuery
