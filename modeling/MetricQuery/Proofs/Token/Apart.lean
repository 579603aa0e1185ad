import MetricQuery.Proofs.Query.Clauses
import MetricQuery.Proofs.Token.Spelling

/-!
# Texts that are read apart

A text is read apart if it is read as the same tokens in front of everything that starts
with a blank, a parenthesis or a comma. Such texts can be put in a row, and their tokens
are then in a row too.

A single token is read apart if it is read back. Any other text, whatever is in it, is
read apart from a parenthesis behind it, unless it leaves open a quoted token or a
comment, which would take in the parenthesis.
-/

namespace MetricQuery

/-- Whether a text is read as tokens of some kinds, and nothing of it is left, in front of
every text behind a token. -/
def ReadsApart (text : List Char) (kinds : List TokenKind) : Prop :=
  ∃ tokens, tokens.map Token.kind = kinds ∧ sourceOf tokens = text ∧
    ∀ rest, StartsBehind rest → InPlace tokens rest

namespace ReadsApart

variable {text front back : List Char} {kinds before behind : List TokenKind}

/-- Texts in a row are read as their tokens in a row. -/
theorem append (first : ReadsApart front before) (second : ReadsApart back behind)
    (starts : StartsBehind back) : ReadsApart (front ++ back) (before ++ behind) := by
  obtain ⟨frontTokens, rfl, rfl, frontInPlace⟩ := first
  obtain ⟨backTokens, rfl, rfl, backInPlace⟩ := second
  refine ⟨frontTokens ++ backTokens, List.map_append, List.flatMap_append, ?_⟩
  intro rest starting
  exact (frontInPlace _ (starts.append starting)).concat (backInPlace rest starting)

/-- A blank in front of a text is skipped. -/
theorem blank (reads : ReadsApart text kinds) (some : kinds ≠ []) :
    ReadsApart (' ' :: text) kinds := by
  obtain ⟨tokens, rfl, rfl, inPlace⟩ := reads
  cases tokens with
  | nil => exact absurd rfl some
  | cons token later =>
    refine ⟨{ token with gap := ' ' :: token.gap } :: later, rfl, rfl, ?_⟩
    intro rest starting
    obtain ⟨skipped, read, laterInPlace⟩ := inPlace rest starting
    exact ⟨.blank (by decide) skipped, read, laterInPlace⟩

/-- A token that is read back is read apart. -/
theorem single {kind : TokenKind} (writable : kind.IsWritable) : ReadsApart kind.written [kind] := by
  refine ⟨[⟨kind, [], kind.written, 0⟩], rfl, by simp [sourceOf], ?_⟩
  intro rest starting
  have terminated := writable.isTerminated (by simp)
  refine ⟨.nil, ?_, trivial⟩
  refine writable.swap terminated (starting.endsToken.offersNoMore _) ?_
  intro dash _
  exact absurd (starting '-' dash) (by decide)

end ReadsApart

/-- Whether a text leaves open neither a quoted token nor a comment at its end. -/
structure StandsApart (text : List Char) : Prop where
  /-- No quoted token is left open. -/
  quotes : LeavesNothingOpen text
  /-- No comment is left open: what is left behind the last token ends with it. -/
  comments : Gap false (scan text).tail

/-- A text that stands apart is read as its own tokens in front of a parenthesis and a token. -/
theorem StandsApart.readsApart {text : List Char} (apart : StandsApart text) {kind : TokenKind}
    (writable : kind.IsWritable) :
    ReadsApart (text ++ '(' :: kind.written)
      ((scan text).tokens.map Token.kind ++ [.openParen, kind]) := by
  obtain ⟨inPlace, _, source⟩ := scan_sound text
  obtain ⟨inside, insideKinds, insideSource, insideInPlace⟩ := ReadsApart.single writable
  let paren : Token := ⟨.openParen, (scan text).tail, ['('], 0⟩
  refine ⟨(scan text).tokens ++ paren :: inside, by simp [paren, insideKinds], ?_, ?_⟩
  · calc sourceOf ((scan text).tokens ++ paren :: inside)
        = (sourceOf (scan text).tokens ++ (scan text).tail) ++ '(' :: sourceOf inside := by
          simp [sourceOf, paren]
      _ = text ++ '(' :: kind.written := by rw [source, insideSource]
  · intro rest starting
    have shape : sourceOf (paren :: inside) ++ rest =
        (scan text).tail ++ '(' :: (sourceOf inside ++ rest) := by
      simp [sourceOf, paren]
    -- Neither a token nor the sign of a comment can go on with the parenthesis.
    have mild : OffersNoMore (sourceOf (paren :: inside) ++ rest) (scan text).tail :=
      shape ▸ offersNoMore_behind _ _ (by decide)
    have noDash : (sourceOf (paren :: inside) ++ rest).head? = some '-' →
        (scan text).tail.head? = some '-' :=
      shape ▸ head?_of_behind (by decide)
    exact inPlace.append apart.quotes mild noDash
      ⟨apart.comments, readsAs_openParen _, insideInPlace rest starting⟩

end MetricQuery
