import MetricQuery.Proofs.Token.Spans

/-!
# What lies between tokens

A scan drops no character silently. A character that lies in the span of no token is white
space, or it belongs to a comment: to two dashes and what follows them up to the end of
their line, or of the text.

A gap is taken apart as it is skipped. Where a comment opens, the end of its line is found
in the same gap, except behind the last token, where the end of the text takes its place.
-/

namespace MetricQuery

open Text (byteLength isBlank)

/-- A comment: two dashes and what follows them in their line. -/
def IsComment (text : List Char) : Prop :=
  (∃ words, text = '-' :: '-' :: words) ∧ '\n' ∉ text

/-- Whether a character with the text in front of it and behind it belongs to a comment
that runs to the end of its line or of the text and that no token reaches into. -/
def LiesInComment (tokens : List Token) (before : List Char) (c : Char) (after : List Char) : Prop :=
  ∃ lead opened later rest, before = lead ++ opened ∧ after = later ++ rest ∧
    IsComment (opened ++ c :: later) ∧ (∀ d ∈ rest.head?, d = '\n') ∧
    ∀ token ∈ tokens, token.span.stop ≤ byteLength lead ∨
      byteLength (lead ++ (opened ++ c :: later)) ≤ token.span.start

/-- A comment that is open at the start of a gap ends with a line in the gap. -/
theorem Gap.lineEnd {inComment : Bool} {gap : List Char} (skipped : Gap inComment gap)
    (opened : inComment = true) : ∃ words rest, gap = words ++ '\n' :: rest ∧ '\n' ∉ words := by
  induction skipped with
  | nil => exact absurd opened Bool.false_ne_true
  | @inside c later goesOn _ inductionHypothesis =>
    obtain ⟨words, rest, rfl, oneLine⟩ := inductionHypothesis rfl
    exact ⟨c :: words, rest, rfl, by simp [Ne.symm goesOn, oneLine]⟩
  | @ends later => exact ⟨[], later, rfl, by simp⟩
  | opens => exact absurd opened Bool.false_ne_true
  | blank => exact absurd opened Bool.false_ne_true

/-- Whether a character between two parts of a gap belongs to a comment that ends with a
line in the second part: to one that opens in the first part or with the character, or to
the one that is open at the start of the gap. -/
def CommentAround (inComment : Bool) (front : List Char) (c : Char) (back : List Char) : Prop :=
  (∃ lead opened later rest, front = lead ++ opened ∧ back = later ++ '\n' :: rest ∧
      IsComment (opened ++ c :: later)) ∨
    (inComment = true ∧ ∃ later rest, back = later ++ '\n' :: rest ∧ '\n' ∉ front ++ c :: later)

/-- A character in front of a comment is not part of it. -/
theorem CommentAround.behind {front back : List Char} {c : Char}
    (around : CommentAround false front c back) (inComment : Bool) (d : Char) :
    CommentAround inComment (d :: front) c back := by
  rcases around with ⟨lead, opened, later, rest, rfl, rfl, comment⟩ | ⟨closed, _⟩
  · exact .inl ⟨d :: lead, opened, later, rest, rfl, rfl, comment⟩
  · exact absurd closed Bool.false_ne_true

/-- Outside of comments, a comment around a character has opened in front of it. -/
theorem CommentAround.opened {front back : List Char} {c : Char}
    (around : CommentAround false front c back) :
    ∃ lead opened later rest, front = lead ++ opened ∧ back = later ++ '\n' :: rest ∧
      IsComment (opened ++ c :: later) :=
  around.resolve_right fun closed => Bool.false_ne_true closed.1

/-- A character of a gap is white space or belongs to a comment. The induction is on the
gap, and the comment is found where it opens. -/
theorem Gap.blank_or_comment {inComment : Bool} {gap front back : List Char} {c : Char}
    (skipped : Gap inComment gap) (here : gap = front ++ c :: back) :
    isBlank c = true ∨ CommentAround inComment front c back := by
  induction skipped generalizing front with
  | nil => simp at here
  | @inside d gap goesOn open' inductionHypothesis =>
    rcases front with _ | ⟨e, front⟩
    · obtain ⟨rfl, rfl⟩ : d = c ∧ gap = back := by simpa using here
      obtain ⟨words, rest, rfl, oneLine⟩ := open'.lineEnd rfl
      exact .inr (.inr ⟨rfl, words, rest, rfl, by simp [Ne.symm goesOn, oneLine]⟩)
    · obtain ⟨rfl, behind⟩ : d = e ∧ gap = front ++ c :: back := by simpa using here
      rcases inductionHypothesis behind with
        blank | ⟨lead, opened, later, rest, rfl, rfl, comment⟩ | ⟨_, later, rest, rfl, oneLine⟩
      · exact .inl blank
      · exact .inr (.inl ⟨d :: lead, opened, later, rest, rfl, rfl, comment⟩)
      · exact .inr (.inr ⟨rfl, later, rest, rfl, by simpa [Ne.symm goesOn] using oneLine⟩)
  | @ends gap _ inductionHypothesis =>
    rcases front with _ | ⟨e, front⟩
    · obtain ⟨rfl, rfl⟩ : '\n' = c ∧ gap = back := by simpa using here
      exact .inl (by decide)
    · obtain ⟨rfl, behind⟩ : '\n' = e ∧ gap = front ++ c :: back := by simpa using here
      exact (inductionHypothesis behind).imp_right fun around => around.behind true '\n'
  | @opens gap open' inductionHypothesis =>
    rcases front with _ | ⟨e, _ | ⟨f, front⟩⟩
    · obtain ⟨rfl, rfl⟩ : '-' = c ∧ '-' :: gap = back := by simpa using here
      obtain ⟨words, rest, rfl, oneLine⟩ := open'.lineEnd rfl
      exact .inr (.inl ⟨[], [], '-' :: words, rest, rfl, rfl, ⟨words, rfl⟩,
        by simpa using oneLine⟩)
    · obtain ⟨rfl, rfl, rfl⟩ : '-' = e ∧ '-' = c ∧ gap = back := by simpa using here
      obtain ⟨words, rest, rfl, oneLine⟩ := open'.lineEnd rfl
      exact .inr (.inl ⟨[], ['-'], words, rest, rfl, rfl, ⟨words, rfl⟩, by simpa using oneLine⟩)
    · obtain ⟨rfl, rfl, behind⟩ : '-' = e ∧ '-' = f ∧ gap = front ++ c :: back := by
        simpa using here
      rcases inductionHypothesis behind with
        blank | ⟨lead, opened, later, rest, rfl, rfl, comment⟩ | ⟨_, later, rest, rfl, oneLine⟩
      · exact .inl blank
      · exact .inr (.inl ⟨'-' :: '-' :: lead, opened, later, rest, rfl, rfl, comment⟩)
      · exact .inr (.inl ⟨[], '-' :: '-' :: front, later, rest, rfl, rfl, ⟨_, rfl⟩,
          by simpa using oneLine⟩)
  | @blank d gap blank _ inductionHypothesis =>
    rcases front with _ | ⟨e, front⟩
    · obtain ⟨rfl, rfl⟩ : d = c ∧ gap = back := by simpa using here
      exact .inl blank
    · obtain ⟨rfl, behind⟩ : d = e ∧ gap = front ++ c :: back := by simpa using here
      exact (inductionHypothesis behind).imp_right fun around => around.behind false d

/-- A character of two texts in a row belongs to the first or to the second one. -/
theorem append_eq_append_cons {first second before after : List Char} {c : Char}
    (here : first ++ second = before ++ c :: after) :
    (∃ back, first = before ++ c :: back ∧ after = back ++ second) ∨
      ∃ front, before = first ++ front ∧ second = front ++ c :: after := by
  rcases List.append_eq_append_iff.mp here with ⟨front, rfl, inSecond⟩ | ⟨mid, rfl, inFirst⟩
  · exact .inr ⟨front, rfl, inSecond⟩
  · cases mid with
    | nil => exact .inr ⟨[], by simp, inFirst.symm⟩
    | cons d back =>
      obtain ⟨rfl, rfl⟩ : c = d ∧ after = back ++ second := by simpa using inFirst
      exact .inl ⟨back, rfl, rfl⟩

/-- A character of a text that was read as tokens stands in the gap of a token, in the
text of a token or behind all of them. -/
theorem place_in_source {tokens : List Token} {tail before after : List Char} {c : Char}
    (here : sourceOf tokens ++ tail = before ++ c :: after) :
    (∃ earlier token later, tokens = earlier ++ token :: later ∧
      ((∃ front back, token.gap = front ++ c :: back ∧ before = sourceOf earlier ++ front ∧
          after = back ++ (token.text ++ (sourceOf later ++ tail))) ∨
        ∃ front back, token.text = front ++ c :: back ∧
          before = sourceOf earlier ++ token.gap ++ front)) ∨
      ∃ front, tail = front ++ c :: after ∧ before = sourceOf tokens ++ front := by
  induction tokens generalizing before with
  | nil => exact .inr ⟨before, here, rfl⟩
  | cons token later inductionHypothesis =>
    have whole : token.gap ++ (token.text ++ (sourceOf later ++ tail)) = before ++ c :: after := by
      simpa [sourceOf] using here
    rcases append_eq_append_cons whole with ⟨back, inGap, behind⟩ | ⟨front, rfl, further⟩
    · exact .inl ⟨[], token, later, rfl, .inl ⟨before, back, inGap, rfl, behind⟩⟩
    rcases append_eq_append_cons further with ⟨back, inText, _⟩ | ⟨front, rfl, inLater⟩
    · exact .inl ⟨[], token, later, rfl, .inr ⟨front, back, inText, rfl⟩⟩
    rcases inductionHypothesis inLater with
      ⟨earlier, other, behind, rfl, inGap | inText⟩ | ⟨front, rfl, rfl⟩
    · obtain ⟨front, back, gap, rfl, rfl⟩ := inGap
      exact .inl ⟨token :: earlier, other, behind, rfl,
        .inl ⟨front, back, gap, by simp [sourceOf], rfl⟩⟩
    · obtain ⟨front, back, written, rfl⟩ := inText
      exact .inl ⟨token :: earlier, other, behind, rfl,
        .inr ⟨front, back, written, by simp [sourceOf]⟩⟩
    · exact .inr ⟨front, rfl, by simp [sourceOf]⟩

/-- No token reaches into the gap of a token. -/
theorem gap_apart {text : List Char} {earlier later : List Token} {token : Token}
    (split : (scan text).tokens = earlier ++ token :: later) :
    ∀ other ∈ (scan text).tokens, other.span.stop ≤ byteLength (sourceOf earlier) ∨
      byteLength (sourceOf earlier ++ token.gap) ≤ other.span.start := by
  have start : token.span.start = byteLength (sourceOf earlier ++ token.gap) := (scan_split split).1
  have ascending := spans_ascending text
  rw [split] at ascending ⊢
  obtain ⟨_, fromHere, before⟩ := List.pairwise_append.mp ascending
  intro other member
  rcases List.mem_append.mp member with inFront | behind
  · have here := before other inFront token List.mem_cons_self
    rw [start, Text.byteLength_append] at here
    exact .inl (by omega)
  · rcases List.mem_cons.mp behind with rfl | further
    · exact .inr (Nat.le_of_eq start.symm)
    · have here := (List.pairwise_cons.mp fromHere).1 other further
      have bytes : token.span.start ≤ token.span.stop := Nat.le_add_right _ _
      exact .inr (by omega)

/-- No token reaches behind the text of all tokens. -/
theorem tail_apart {text : List Char} {token : Token} (member : token ∈ (scan text).tokens) :
    token.span.stop ≤ byteLength (sourceOf (scan text).tokens) := by
  obtain ⟨earlier, later, split⟩ := exists_scan_split member
  have stop : token.span.stop = token.start + byteLength token.text := rfl
  rw [stop, (scan_split split).1, split]
  simp only [sourceOf, List.flatMap_append, List.flatMap_cons, Text.byteLength_append]
  omega

/-- A character in the gap of a token is white space or belongs to a comment. -/
theorem accounted_in_gap {text : List Char} {earlier later : List Token} {token : Token}
    (split : (scan text).tokens = earlier ++ token :: later) {front back : List Char} {c : Char}
    (gap : token.gap = front ++ c :: back) (more : List Char) :
    isBlank c = true ∨
      LiesInComment (scan text).tokens (sourceOf earlier ++ front) c (back ++ more) := by
  have skipped : Gap false token.gap := (split ▸ (scan_sound text).1 : InPlace _ _).token.1
  refine (skipped.blank_or_comment gap).imp_right fun around => ?_
  obtain ⟨lead, opened, words, rest, rfl, rfl, comment⟩ := around.opened
  refine ⟨sourceOf earlier ++ lead, opened, words, '\n' :: (rest ++ more), by simp, by simp,
    comment, by simp, ?_⟩
  intro other member
  have apart := gap_apart split other member
  simp only [gap, Text.byteLength_append, byteLength] at apart ⊢
  omega

/-- A character behind all tokens is white space or belongs to a comment. The end of the
text closes the last comment as the end of its line would. -/
theorem accounted_in_tail {text front after : List Char} {c : Char}
    (tail : (scan text).tail = front ++ c :: after) :
    isBlank c = true ∨
      LiesInComment (scan text).tokens (sourceOf (scan text).tokens ++ front) c after := by
  have skipped : Gap false ((scan text).tail ++ '\n' :: []) := Gap.endLine (scan_sound text).2.1 .nil
  have here : (scan text).tail ++ ['\n'] = front ++ c :: (after ++ ['\n']) := by simp [tail]
  refine (skipped.blank_or_comment here).imp_right fun around => ?_
  obtain ⟨lead, opened, words, rest, rfl, ends, comment⟩ := around.opened
  have lineEnd : ∃ more, after = words ++ more ∧ ∀ d ∈ more.head?, d = '\n' := by
    rcases List.eq_nil_or_concat rest with rfl | ⟨kept, last, rfl⟩
    · exact ⟨[], by simpa using ends, by simp⟩
    · have same : after ++ ['\n'] = (words ++ '\n' :: kept) ++ [last] := by
        rw [ends]
        simp
      exact ⟨'\n' :: kept, (List.append_inj' same rfl).1, by simp⟩
  obtain ⟨more, rfl, stops⟩ := lineEnd
  refine ⟨sourceOf (scan text).tokens ++ lead, opened, words, more, by simp, rfl, comment, stops, ?_⟩
  intro token member
  have apart := tail_apart member
  rw [Text.byteLength_append]
  exact .inl (by omega)

/-- Every character of a text lies in the span of a token, is white space, or belongs to a
comment that runs to the end of its line or of the text. -/
theorem character_accounted {text before after : List Char} {c : Char}
    (here : text = before ++ c :: after) :
    (∃ token ∈ (scan text).tokens, token.span.start ≤ byteLength before ∧
        byteLength before + c.utf8Size ≤ token.span.stop) ∨
      isBlank c = true ∨ LiesInComment (scan text).tokens before c after := by
  obtain ⟨_, _, source⟩ := scan_sound text
  rcases place_in_source (source.trans here) with
    ⟨earlier, token, later, split, inGap | inText⟩ | ⟨front, tail, rfl⟩
  · obtain ⟨front, back, gap, rfl, rfl⟩ := inGap
    exact .inr (accounted_in_gap split gap _)
  · obtain ⟨front, back, written, rfl⟩ := inText
    have start : token.span.start = byteLength (sourceOf earlier ++ token.gap) :=
      (scan_split split).1
    have stop : token.span.stop = token.span.start + byteLength token.text := rfl
    refine .inl ⟨token, by simp [split], ?_⟩
    rw [stop, start, written]
    simp only [Text.byteLength_append, byteLength]
    omega
  · exact .inr (accounted_in_tail tail)

end MetricQuery
