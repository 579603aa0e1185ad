import MetricQuery.Proofs.Text.Blank
import MetricQuery.Proofs.Token.Between
import MetricQuery.Proofs.Token.Cursor
import MetricQuery.Token.Layout

/-!
# Pieces of a scanned text

Whatever is cut out of a text by the places of its tokens is there to be cut: the text of
a token, its body, the text from one token to a later one, and the pieces between line
breaks from which a layout is put together. The layout trims each of these pieces at its
end, which takes white space in front of a token and never the end of a token, because a
token that something follows ends in a visible character.
-/

namespace MetricQuery

open Text (byteLength isBlank isDigit continuesWord trimEnd trimEnd_cons)

/-- A text whose last character is visible. -/
def EndsVisibly (text : List Char) : Prop := ∃ front c, text = front ++ [c] ∧ isBlank c = false

/-- A text ends visibly when what ends it does. -/
theorem EndsVisibly.behind {back : List Char} (ends : EndsVisibly back) (front : List Char) :
    EndsVisibly (front ++ back) := by
  obtain ⟨inner, c, rfl, visible⟩ := ends
  exact ⟨front ++ inner, c, by simp, visible⟩

/-- Trimming takes white space behind a text, and nothing of a text that ends visibly. -/
theorem EndsVisibly.trimEnd_append {text : List Char} (ends : EndsVisibly text)
    (more : List Char) : trimEnd (text ++ more) = text ++ trimEnd more := by
  obtain ⟨front, c, rfl, visible⟩ := ends
  induction front with
  | nil =>
    rw [List.nil_append, List.singleton_append, trimEnd_cons, if_neg (by simp [visible])]
    rfl
  | cons d later inductionHypothesis =>
    rw [List.cons_append, List.cons_append, trimEnd_cons, inductionHypothesis, if_neg (by simp)]
    rfl

/-- A number goes on with digits and a point. -/
theorem splitNumber_taken {pointSeen : Bool} {text : List Char} :
    ∀ d ∈ (splitNumber pointSeen text).taken, isDigit d = true ∨ d = '.' := by
  fun_induction splitNumber pointSeen text with
  | case1 => exact fun _ member => absurd member List.not_mem_nil
  | case2 pointSeen c later digit inductionHypothesis =>
    exact List.forall_mem_cons.mpr ⟨.inl digit, inductionHypothesis⟩
  | case3 pointSeen c later _ point inductionHypothesis =>
    have dot : c = '.' := by
      simp only [Bool.and_eq_true, decide_eq_true_eq] at point
      exact point.1.1
    exact List.forall_mem_cons.mpr ⟨.inr dot, inductionHypothesis⟩
  | case4 => exact fun _ member => absurd member List.not_mem_nil

/-- A token without quotes is its first character and characters with which a token can
go on. -/
theorem lexToken_extends (c : Char) (later : List Char) :
    (lexToken c later).kind.isQuoted = false →
      ∀ d ∈ (lexToken c later).tail, extendsToken d = true := by
  refine lexToken_cases (motive := fun lexeme => lexeme.kind.isQuoted = false →
    ∀ d ∈ lexeme.tail, extendsToken d = true) ?symbol ?sign ?string ?quotedName ?number
    ?escaped ?word ?illegal
  case symbol => exact fun _ _ _ => nofun
  case illegal => exact fun _ => nofun
  case string => exact fun _ => nofun
  case quotedName => exact fun _ => nofun
  case escaped => exact fun _ _ _ => nofun
  case sign =>
    intro _ d member
    rcases (lexSign_parts c later).2 d member with rfl | rfl <;> decide
  case number =>
    intro _ d member
    rcases splitNumber_taken d member with digit | rfl
    · exact extendsToken_of_isDigit digit
    · decide
  case word =>
    intro _ d member
    exact extendsToken_of_continuesWord (List.all_eq_true.mp List.all_takeWhile d member)

/-- A token that is not left open ends visibly. -/
theorem ReadsAs.endsVisibly {kind : TokenKind} {text rest : List Char}
    (reads : ReadsAs kind text rest) (terminated : kind.IsTerminated text) : EndsVisibly text := by
  obtain ⟨c, tail, rfl, read⟩ := reads.read
  have first : isBlank c = false := (startsVisible_cons_iff.mp reads.visible).1
  have closing {quote : Char} (visible : isBlank quote = false) {body : List Char}
      (same : tail = body ++ [quote]) : EndsVisibly (c :: tail) :=
    ⟨c :: body, quote, by rw [same]; rfl, visible⟩
  cases quoted : kind.isQuoted with
  | true =>
    cases kind with
    | quotedName body => exact closing (by decide) (List.cons.inj terminated).2
    | string body => exact closing (by decide) (List.cons.inj terminated).2
    | escapedString body =>
      have quotes : tail = ('\'' :: body) ++ ['\''] := terminated
      exact closing (by decide) quotes
    | _ => cases quoted
  | false =>
    rcases List.eq_nil_or_concat tail with rfl | ⟨inner, d, rfl⟩
    · exact ⟨[], c, rfl, first⟩
    · have goesOn : extendsToken d = true := by
        have others := lexToken_extends c (inner.concat d ++ rest)
        rw [read] at others
        exact others quoted d (by simp)
      have visible : isBlank d = false := by
        cases blank : isBlank d with
        | false => rfl
        | true => exact absurd goesOn (by simp [extendsToken_of_isBlank blank])
      exact ⟨c :: inner, d, by simp, visible⟩

namespace Cursor

/-- Lay out a text of which everything up to a position was copied, by cutting out the
pieces between the line breaks. -/
def layoutFrom (source : List Char) :
    LayoutState → Nat → List (TokenKind × Span) → Option (List Char)
  | _, last, [] => (Span.mk last (byteLength source)).cut? source
  | state, last, (kind, span) :: later =>
      match state.step kind with
      | (some lineBreak, after) => do
          let piece ← (Span.mk last span.start).cut? source
          let rest ← layoutFrom source after span.start later
          return trimEnd piece ++ lineBreak ++ rest
      | (none, after) => layoutFrom source after last later

/-- A layout by positions copies what was not copied so far and lays out what is behind
it. Nothing of it is lost by trimming, because it is empty or ends with a token. -/
theorem layoutFrom_placed (state : LayoutState) (done pending : List Char) {tokens : List Token}
    {tail : List Char} (inPlace : InPlace tokens tail)
    (ends : tokens ≠ [] → pending = [] ∨ EndsVisibly pending) :
    layoutFrom (done ++ pending ++ (sourceOf tokens ++ tail)) state (byteLength done)
        ((placed (byteLength (done ++ pending)) tokens).map fun token => (token.kind, token.span)) =
      some (pending ++ layoutTokens state tokens ++ tail) := by
  induction tokens generalizing state done pending with
  | nil =>
    have cut := cut?_passed done (pending ++ tail) []
    simpa [layoutFrom, placed, sourceOf, layoutTokens] using cut
  | cons token later inductionHypothesis =>
    obtain ⟨skipped, reads, laterInPlace⟩ := inPlace
    have endsThen : later ≠ [] → EndsVisibly token.text := by
      intro more
      obtain ⟨following, behind, rfl⟩ := List.exists_cons_of_ne_nil more
      obtain ⟨c, _, written, _⟩ := laterInPlace.2.1.read
      exact reads.endsVisibly (reads.isTerminated (by simp [sourceOf, written]))
    have source : done ++ pending ++ (sourceOf (token :: later) ++ tail) =
        done ++ (pending ++ token.gap) ++ token.text ++ (sourceOf later ++ tail) := by
      simp [sourceOf]
    have start : byteLength (done ++ pending) + byteLength token.gap =
        byteLength (done ++ (pending ++ token.gap)) := by
      rw [← List.append_assoc, ← Text.byteLength_append]
    have stop : byteLength (done ++ (pending ++ token.gap)) + byteLength token.text =
        byteLength (done ++ (pending ++ token.gap) ++ token.text) :=
      (Text.byteLength_append _ _).symm
    cases asked : state.step token.kind with
    | mk lineBreak after =>
    cases lineBreak with
    | none =>
      have further := inductionHypothesis after done (pending ++ token.gap ++ token.text)
        laterInPlace fun more => .inr ((endsThen more).behind _)
      rw [← List.append_assoc done] at further
      simp only [placed, List.map_cons, layoutFrom, layoutTokens, asked, source, start, stop,
        further]
      simp only [List.append_assoc]
    | some lineBreak =>
      have trimmed : trimEnd (pending ++ token.gap) = pending ++ trimEnd token.gap := by
        rcases ends (by simp) with rfl | visibly
        · rfl
        · exact visibly.trimEnd_append token.gap
      have piece := cut?_passed done (pending ++ token.gap) (token.text ++ (sourceOf later ++ tail))
      have further := inductionHypothesis after (done ++ (pending ++ token.gap)) token.text
        laterInPlace fun more => .inr (endsThen more)
      rw [← List.append_assoc (done ++ (pending ++ token.gap))] at piece
      have spanStart (place : Nat) :
          (Token.mk token.kind token.gap token.text place).span.start = place := rfl
      simp only [placed, List.map_cons, layoutFrom, layoutTokens, asked, source, start, stop,
        spanStart, piece, further, trimmed, Option.bind_eq_bind, Option.bind_some]
      simp only [List.append_assoc]
      rfl

/-- A layout by positions cuts out every piece that it copies, and is the layout. -/
theorem layoutFrom_scan (text : List Char) :
    layoutFrom text {} 0 ((scan text).tokens.map fun token => (token.kind, token.span)) =
      some (layout text) := by
  obtain ⟨inPlace, _, source⟩ := scan_sound text
  have whole := layoutFrom_placed {} [] [] inPlace fun _ => .inl rfl
  rw [List.append_nil, List.nil_append, source] at whole
  rw [← placed_scan text]
  exact whole

end Cursor

/-- A scan accounts for every character of a text, and whatever is cut out by the places of
its tokens is there. Each token takes up bytes of the text between two places where a
character starts or the text ends, and the tokens follow one another. A character outside
of them is white space or belongs to a comment. The body of a token is its text without
what is around it, and only at the end of the text it may lack its closing quote. The text
of tokens in a row is cut out from the first of them to the last. A cursor finds the same
tokens from positions alone, and the layout is put together from pieces between
positions; neither ever cuts outside of the text or inside of a character. -/
theorem scan_accounts_for_text (text : List Char) :
    let tokens := (scan text).tokens
    let places := tokens.map fun token => (token.kind, token.span)
    (∀ token ∈ tokens, token.span.start < token.span.stop ∧
        token.span.stop ≤ byteLength text ∧ token.span.cut? text = some token.text) ∧
      (tokens.Pairwise fun earlier later => earlier.span.stop ≤ later.span.start) ∧
      (∀ before c after, text = before ++ c :: after →
        (∃ token ∈ tokens, token.span.start ≤ byteLength before ∧
            byteLength before + c.utf8Size ≤ token.span.stop) ∨
          isBlank c = true ∨ LiesInComment tokens before c after) ∧
      (∀ token ∈ tokens, ∀ body, token.kind.body? = some body →
        ∃ opening closing, token.kind.IsWrapped opening closing ∧
          token.text = opening ++ body ++ closing ∧
          (Span.mk (token.span.start + byteLength opening)
            (token.span.stop - byteLength closing)).cut? text = some body ∧
          (token.kind.isQuoted = true → closing = [] → token.span.stop = byteLength text)) ∧
      (∀ run first last, run <:+: tokens → run.head? = some first → run.getLast? = some last →
        ((Span.mk first.span.start last.span.stop).cut? text).map Text.trim =
          some (textOf run)) ∧
      Cursor.Run text 0 places ∧ Cursor.layoutFrom text {} 0 places = some (layout text) := by
  refine ⟨fun token => cut?_token, ?_, fun before c after => character_accounted,
    fun token member body => cut?_body member, ?_, Cursor.run_scanFrom [] text,
    Cursor.layoutFrom_scan text⟩
  · exact (spans_ascending text).imp fun behind => Nat.le_trans (Nat.le_add_right _ _) behind
  · intro run first last inRow starts ends
    exact cut?_textOf inRow starts ends

end MetricQuery
