import MetricQuery.Proofs.Token.Joining
import MetricQuery.Query.Reading

/-!
# Tokens in their text

The place of a token is a count of bytes, and a count of bytes names a place of a
text only where a character starts or the text ends. This module follows the counts
of a scan back to such places. The text in front of a token, the token and the text
behind it give back the whole text, so the span of a token cuts out the token, a span
from one token to a later one cuts out everything between them, and the body of a
token is cut out of it between its quotes.
-/

namespace MetricQuery

open Text (byteLength dropBytes takeBytes)

/-- The text in a span, if its ends are in order and each of them is a place where a
character starts or the text ends. -/
def Span.cut? (span : Span) (source : List Char) : Option (List Char) :=
  if span.start ≤ span.stop then
    (dropBytes span.start source).bind (takeBytes (span.stop - span.start))
  else none

/-- The text in a span is what it cuts out, and nothing where it cannot cut. -/
theorem Span.text_eq_getD (span : Span) (source : List Char) :
    span.text source = (span.cut? source).getD [] := by
  rw [Span.text, Span.cut?]
  split <;> rfl

/-- A span around a piece of a text cuts out the piece. -/
theorem Span.cut?_append (front piece back : List Char) :
    (Span.mk (byteLength front) (byteLength front + byteLength piece)).cut?
      (front ++ (piece ++ back)) = some piece := by
  rw [cut?, if_pos (Nat.le_add_right _ _), Text.dropBytes_append, Nat.add_sub_cancel_left]
  exact Text.takeBytes_append piece back

/-- A text with a character in it has bytes. -/
theorem Text.byteLength_pos {text : List Char} (some : text ≠ []) : 0 < byteLength text := by
  cases text with
  | nil => exact absurd rfl some
  | cons c later => exact Nat.add_pos_left c.utf8Size_pos _

section Placed

/-- Tokens in a row are placed one part after the other. -/
theorem placed_append (start : Nat) (front back : List Token) :
    placed start (front ++ back) =
      placed start front ++ placed (start + byteLength (sourceOf front)) back := by
  induction front generalizing start with
  | nil => rfl
  | cons token later inductionHypothesis =>
    have source : byteLength (sourceOf (token :: later)) =
        byteLength token.gap + byteLength token.text + byteLength (sourceOf later) := by
      rw [sourceOf, List.flatMap_cons, Text.byteLength_append, Text.byteLength_append, sourceOf]
    simp only [List.cons_append, placed, inductionHypothesis, source, Nat.add_assoc]

/-- The tokens of a scan are placed where they stand. -/
theorem placed_scan (text : List Char) : placed 0 (scan text).tokens = (scan text).tokens := by
  obtain ⟨inPlace, none, source⟩ := scan_sound text
  have again := scanFrom_sourceOf inPlace none 0
  rw [source] at again
  exact (congrArg Scan.tokens again).symm

/-- Placed tokens start behind the place from which they are counted, and each of them
starts behind the one before it and its own gap. -/
theorem placed_ascending (start : Nat) (tokens : List Token) :
    (∀ token ∈ placed start tokens, start + byteLength token.gap ≤ token.span.start) ∧
      (placed start tokens).Pairwise fun earlier later =>
        earlier.span.stop + byteLength later.gap ≤ later.span.start := by
  induction tokens generalizing start with
  | nil => exact ⟨nofun, .nil⟩
  | cons token later inductionHypothesis =>
    obtain ⟨behind, ascending⟩ :=
      inductionHypothesis (start + byteLength token.gap + byteLength token.text)
    refine ⟨?_, List.pairwise_cons.mpr ⟨behind, ascending⟩⟩
    intro other member
    rcases List.mem_cons.mp member with rfl | further
    · exact Nat.le_refl _
    · have later := behind other further
      omega

end Placed

/-- A token of tokens that are in place is in place itself. -/
theorem InPlace.token {earlier later : List Token} {token : Token} {rest : List Char}
    (inPlace : InPlace (earlier ++ token :: later) rest) :
    Gap false token.gap ∧ ReadsAs token.kind token.text (sourceOf later ++ rest) := by
  induction earlier with
  | nil => exact ⟨inPlace.1, inPlace.2.1⟩
  | cons first earlier inductionHypothesis => exact inductionHypothesis inPlace.2.2

/-- Where a token of a scan stands: behind the text in front of it, and in front of the
text that the tokens behind it and the rest were read from. -/
theorem scan_split {text : List Char} {earlier later : List Token} {token : Token}
    (split : (scan text).tokens = earlier ++ token :: later) :
    token.start = byteLength (sourceOf earlier ++ token.gap) ∧
      text = (sourceOf earlier ++ token.gap) ++
        (token.text ++ (sourceOf later ++ (scan text).tail)) := by
  obtain ⟨_, _, source⟩ := scan_sound text
  constructor
  · have same := placed_scan text
    rw [split, placed_append] at same
    have placedHere := (List.append_inj same (by
      simpa using congrArg List.length (kinds_placed 0 earlier))).2
    have start := congrArg Token.start (List.cons.inj placedHere).1
    rw [← start, Text.byteLength_append]
    exact congrArg (· + _) (Nat.zero_add _)
  · conv => lhs; rw [← source, split]
    simp [sourceOf]

/-- A token of a scan stands somewhere among the others. -/
theorem exists_scan_split {text : List Char} {token : Token} (member : token ∈ (scan text).tokens) :
    ∃ earlier later, (scan text).tokens = earlier ++ token :: later :=
  List.append_of_mem member

/-- The span of a token holds bytes, lies in the text and cuts out the token. -/
theorem cut?_token {text : List Char} {token : Token} (member : token ∈ (scan text).tokens) :
    token.span.start < token.span.stop ∧ token.span.stop ≤ byteLength text ∧
      token.span.cut? text = some token.text := by
  obtain ⟨earlier, later, split⟩ := exists_scan_split member
  obtain ⟨start, source⟩ := scan_split split
  obtain ⟨c, tail, written, _⟩ := (split ▸ (scan_sound text).1 : InPlace _ _).token.2.read
  have bytes : 0 < byteLength token.text := Text.byteLength_pos (by simp [written])
  have stop : token.span.stop = token.start + byteLength token.text := rfl
  refine ⟨by rw [stop]; exact Nat.lt_add_of_pos_right bytes, ?_, ?_⟩
  · have whole := congrArg byteLength source
    rw [Text.byteLength_append, ← start, Text.byteLength_append] at whole
    omega
  · conv => lhs; rw [source]
    rw [Token.span, start]
    exact Span.cut?_append _ _ _

/-- The text in the span of a token is the text that the token was read from. -/
theorem text_span {text : List Char} {token : Token} (member : token ∈ (scan text).tokens) :
    token.span.text text = token.text := by
  rw [Span.text_eq_getD, (cut?_token member).2.2, Option.getD_some]

/-- The spans of tokens follow one another, with the gaps between them. -/
theorem spans_ascending (text : List Char) :
    (scan text).tokens.Pairwise fun earlier later =>
      earlier.span.stop + byteLength later.gap ≤ later.span.start := by
  have ascending := (placed_ascending 0 (scan text).tokens).2
  rwa [placed_scan] at ascending

/-- The span from the first of some tokens in a row to the last of them cuts out their
text with the gaps between them. -/
theorem cut?_run {text : List Char} {first last : Token} {inner : List Token}
    (inRow : first :: inner <:+: (scan text).tokens)
    (ends : (first :: inner).getLast? = some last) :
    (Span.mk first.span.start last.span.stop).cut? text = some (first.text ++ sourceOf inner) := by
  obtain ⟨earlier, later, split⟩ := inRow
  obtain ⟨front, shape⟩ := List.getLast?_eq_some_iff.mp ends
  have firstSplit : (scan text).tokens = earlier ++ first :: (inner ++ later) := by
    rw [← split]; simp
  have lastSplit : (scan text).tokens = (earlier ++ front) ++ last :: later := by
    rw [← split, shape]; simp
  obtain ⟨firstStart, source⟩ := scan_split firstSplit
  obtain ⟨lastStart, -⟩ := scan_split lastSplit
  have same : sourceOf (earlier ++ front) ++ last.gap ++ last.text =
      (sourceOf earlier ++ first.gap) ++ (first.text ++ sourceOf inner) := by
    have whole := congrArg (fun run => sourceOf earlier ++ sourceOf run) shape
    simpa [sourceOf] using whole.symm
  have stop : last.span.stop =
      byteLength (sourceOf earlier ++ first.gap) + byteLength (first.text ++ sourceOf inner) := by
    rw [← Text.byteLength_append, ← same, Text.byteLength_append _ last.text, ← lastStart]
    rfl
  have joint : sourceOf (inner ++ later) ++ (scan text).tail =
      sourceOf inner ++ (sourceOf later ++ (scan text).tail) := by
    simp [sourceOf]
  rw [joint, ← List.append_assoc first.text] at source
  conv => lhs; rw [source]
  rw [stop, Token.span, firstStart]
  exact Span.cut?_append _ _ _

/-- The text of some tokens in a row is cut out of the source, from the first of them to
the last, and trimmed. -/
theorem cut?_textOf {text : List Char} {run : List Token} (inRow : run <:+: (scan text).tokens)
    {first last : Token} (starts : run.head? = some first) (ends : run.getLast? = some last) :
    ((Span.mk first.span.start last.span.stop).cut? text).map Text.trim = some (textOf run) := by
  obtain ⟨inner, rfl⟩ := List.head?_eq_some_iff.mp starts
  rw [cut?_run inRow ends]
  rfl

/-- What stands around the body of a token: nothing around a name or a number, and the
quotes around any other body, with the letter before them. The closing quote may be
missing. -/
def TokenKind.IsWrapped (kind : TokenKind) (opening closing : List Char) : Prop :=
  match kind with
  | .name _ | .number _ => opening = [] ∧ closing = []
  | .quotedName _ => opening = ['"'] ∧ (closing = ['"'] ∨ closing = [])
  | .string _ => opening = ['\''] ∧ (closing = ['\''] ∨ closing = [])
  | .escapedString _ =>
      (opening = ['E', '\''] ∨ opening = ['e', '\'']) ∧ (closing = ['\''] ∨ closing = [])
  | _ => False

/-- What a token can be, in the order in which reading tries it. -/
theorem lexToken_cases {motive : Lexeme → Prop} {c : Char} {later : List Char}
    (symbol : ∀ kind, symbolKind? c = some kind → motive ⟨kind, [], later⟩)
    (sign : motive (lexSign c later))
    (string : c = '\'' → motive (lexQuoted '\'' .string later))
    (quotedName : c = '"' → motive (lexQuoted '"' .quotedName later))
    (number : motive (lexNumber c later))
    (escaped : c = 'E' ∨ c = 'e' → ∀ quotedText, later = '\'' :: quotedText →
      motive ⟨.escapedString (splitEscaped quotedText).body,
        '\'' :: (splitEscaped quotedText).taken '\'', (splitEscaped quotedText).rest⟩)
    (word : motive ⟨wordKind (c :: (splitWord later).taken), (splitWord later).taken,
      (splitWord later).rest⟩)
    (illegal : motive ⟨.illegal, [], later⟩) : motive (lexToken c later) := by
  unfold lexToken
  split
  · rename_i kind same
    exact symbol kind same
  split
  · exact sign
  split
  · rename_i singleQuote
    exact singleQuote ▸ string singleQuote
  split
  · rename_i doubleQuote
    exact doubleQuote ▸ quotedName doubleQuote
  split
  · exact number
  split
  · by_cases escape : (c = 'E' ∨ c = 'e') ∧ later.head? = some '\''
    · obtain ⟨letter, quoteAhead⟩ := escape
      obtain ⟨quotedText, ahead⟩ := List.head?_eq_some_iff.mp quoteAhead
      rw [ahead, lexWord_quote letter]
      exact escaped letter quotedText ahead
    · rw [lexWord_plain escape]
      exact word
  · exact illegal

/-- A sign carries no body, and goes on with an equals sign or a greater sign only. -/
theorem lexSign_parts (c : Char) (later : List Char) :
    (lexSign c later).kind.body? = none ∧ ∀ d ∈ (lexSign c later).tail, d = '=' ∨ d = '>' := by
  have single {alone paired : TokenKind} (noAlone : alone.body? = none)
      (noPaired : paired.body? = none) :
      (withSecond '=' alone paired later).kind.body? = none ∧
        ∀ d ∈ (withSecond '=' alone paired later).tail, d = '=' ∨ d = '>' := by
    cases later with
    | nil => exact ⟨noAlone, nofun⟩
    | cons d later => by_cases same : d = '=' <;> simp [withSecond, same, noAlone, noPaired]
  unfold lexSign
  split
  · exact single rfl rfl
  split
  · exact single rfl rfl
  split
  · exact ⟨rfl, by simp⟩
  · exact single rfl rfl

/-- A symbol carries no body. -/
theorem body?_symbolKind? {c : Char} {kind : TokenKind} (symbol : symbolKind? c = some kind) :
    kind.body? = none := by
  unfold symbolKind? at symbol
  grind [TokenKind.body?]

/-- A quoted text is its body and the closing quote, which is missing only at the end of
the input. -/
theorem QuotedSplit.taken_eq {split : QuotedSplit} (quote : Char)
    (closes : split.rest ≠ [] → split.closed = true) :
    ∃ closing, split.taken quote = split.body ++ closing ∧ (closing = [quote] ∨ closing = []) ∧
      (closing = [] → split.rest = []) := by
  cases closed : split.closed with
  | true => exact ⟨[quote], by simp [taken, closed], .inl rfl, by simp⟩
  | false =>
    have ended : split.rest = [] := by
      by_cases nothing : split.rest = []
      · exact nothing
      · exact absurd (closes nothing) (by simp [closed])
    exact ⟨[], by simp [taken, closed], .inr rfl, fun _ => ended⟩

/-- The body that a word carries is the word itself. -/
theorem body?_wordKind {word body : List Char} (carries : (wordKind word).body? = some body) :
    body = word ∧ (wordKind word).IsWrapped [] [] ∧ (wordKind word).isQuoted = false := by
  unfold wordKind at carries ⊢
  cases found : Keyword.ofWord? word with
  | some keyword => simp [found, TokenKind.body?] at carries
  | none =>
    simp only [found, TokenKind.body?, Option.some.injEq] at carries
    exact ⟨carries.symm, ⟨rfl, rfl⟩, rfl⟩

/-- A token with a body is its body and what stands around it. Only a token at the end of
the input lacks its closing quote. -/
theorem lexToken_body (c : Char) (later : List Char) :
    ∀ body, (lexToken c later).kind.body? = some body →
      ∃ opening closing, (lexToken c later).kind.IsWrapped opening closing ∧
        c :: (lexToken c later).tail = opening ++ body ++ closing ∧
        ((lexToken c later).kind.isQuoted = true → closing = [] → (lexToken c later).rest = []) := by
  have bodyless {kind : TokenKind} {statement : Prop} (none : kind.body? = none) {body : List Char}
      (carries : kind.body? = some body) : statement := by
    rw [none] at carries
    cases carries
  refine lexToken_cases (motive := fun lexeme => ∀ body, lexeme.kind.body? = some body →
    ∃ opening closing, lexeme.kind.IsWrapped opening closing ∧
      c :: lexeme.tail = opening ++ body ++ closing ∧
      (lexeme.kind.isQuoted = true → closing = [] → lexeme.rest = [])) ?symbol ?sign ?string
    ?quotedName ?number ?escaped ?word ?illegal
  case symbol => exact fun kind symbol body => bodyless (body?_symbolKind? symbol)
  case sign => exact fun body => bodyless (lexSign_parts c later).1
  case illegal => exact fun body => bodyless rfl
  case string =>
    rintro rfl _ ⟨rfl⟩
    obtain ⟨closing, shape, closes, ends⟩ := QuotedSplit.taken_eq '\'' splitQuoted_closed
    exact ⟨['\''], closing, ⟨rfl, closes⟩, congrArg ('\'' :: ·) shape, fun _ => ends⟩
  case quotedName =>
    rintro rfl _ ⟨rfl⟩
    obtain ⟨closing, shape, closes, ends⟩ := QuotedSplit.taken_eq '"' splitQuoted_closed
    exact ⟨['"'], closing, ⟨rfl, closes⟩, congrArg ('"' :: ·) shape, fun _ => ends⟩
  case number =>
    rintro _ ⟨rfl⟩
    exact ⟨[], [], ⟨rfl, rfl⟩, (List.append_nil _).symm, nofun⟩
  case escaped =>
    rintro letter quotedText rfl _ ⟨rfl⟩
    obtain ⟨closing, shape, closes, ends⟩ := QuotedSplit.taken_eq '\'' splitEscaped_closed
    refine ⟨[c, '\''], closing, ⟨?_, closes⟩, congrArg (c :: '\'' :: ·) shape, fun _ => ends⟩
    rcases letter with rfl | rfl
    · exact .inl rfl
    · exact .inr rfl
  case word =>
    intro body carries
    obtain ⟨rfl, wrapped, unquoted⟩ := body?_wordKind carries
    exact ⟨[], [], wrapped, (List.append_nil _).symm, by simp [unquoted]⟩

/-- The body of a token is cut out of the text between what stands around it. Only the
token at the end of the text lacks its closing quote. -/
theorem cut?_body {text : List Char} {token : Token} (member : token ∈ (scan text).tokens)
    {body : List Char} (carries : token.kind.body? = some body) :
    ∃ opening closing, token.kind.IsWrapped opening closing ∧
      token.text = opening ++ body ++ closing ∧
      (Span.mk (token.span.start + byteLength opening)
        (token.span.stop - byteLength closing)).cut? text = some body ∧
      (token.kind.isQuoted = true → closing = [] → token.span.stop = byteLength text) := by
  obtain ⟨earlier, later, split⟩ := exists_scan_split member
  obtain ⟨start, source⟩ := scan_split split
  obtain ⟨c, tail, written, read⟩ := (split ▸ (scan_sound text).1 : InPlace _ _).token.2.read
  have parts := lexToken_body c (tail ++ (sourceOf later ++ (scan text).tail))
  rw [read] at parts
  obtain ⟨opening, closing, wrapped, shape, ends⟩ := parts body carries
  rw [← written] at shape
  have stop : token.span.stop = byteLength (sourceOf earlier ++ token.gap) +
      byteLength token.text := by rw [Token.span, start]
  refine ⟨opening, closing, wrapped, shape, ?_, ?_⟩
  · have cut := Span.cut?_append ((sourceOf earlier ++ token.gap) ++ opening) body
      (closing ++ (sourceOf later ++ (scan text).tail))
    have whole : ((sourceOf earlier ++ token.gap) ++ opening) ++
        (body ++ (closing ++ (sourceOf later ++ (scan text).tail))) = text := by
      conv => rhs; rw [source, shape]
      simp
    have bodyStop : token.span.stop - byteLength closing =
        byteLength ((sourceOf earlier ++ token.gap) ++ opening) + byteLength body := by
      rw [stop, shape, Text.byteLength_append _ opening]
      simp only [Text.byteLength_append]
      omega
    rw [bodyStop, Token.span, start, ← Text.byteLength_append]
    rwa [whole] at cut
  · intro quoted none
    have nothing : sourceOf later ++ (scan text).tail = [] := ends quoted none
    rw [stop, ← Text.byteLength_append]
    conv => rhs; rw [source, nothing, List.append_nil]

end MetricQuery
