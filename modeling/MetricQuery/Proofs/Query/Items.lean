import MetricQuery.Query.Reading

/-!
# Cutting queries into clauses and items

A query text is cut at opening keywords into clauses, and a clause at separators
into items. Both cuts look at the kinds of tokens only. A clause is found again
when it is followed by nothing or by the next opening keyword, and the items of
a list are found again when each of them is closed: its parentheses match and
no separator stands outside of them.
-/

namespace MetricQuery

/-- Lists joined by a separator between each two of them. -/
def separated {α : Type} (separator : α) : List (List α) → List α
  | [] => []
  | [only] => only
  | first :: second :: later => first ++ separator :: separated separator (second :: later)

/-- Whether some kinds of tokens leave every parenthesis closed that was open or
that they open, with no separator outside of parentheses. -/
def isClosed (isSeparator : TokenKind → Bool) : Nat → List TokenKind → Bool
  | depth, [] => depth = 0
  | depth, kind :: later =>
      !(depth = 0 && isSeparator kind) && isClosed isSeparator (depthAfter depth kind) later

variable {isSeparator : TokenKind → Bool}

/-- The first piece of some tokens is all of them, or a separator stands behind it, and the
tokens behind the separator are cut as if they stood alone. -/
theorem splitPieces_cases (isSeparator : TokenKind → Bool) (depth : Nat) (tokens : List Token) :
    splitPieces isSeparator depth tokens = (tokens, []) ∨
      ∃ piece mark more, tokens = piece ++ mark :: more ∧ isSeparator mark.kind = true ∧
        splitPieces isSeparator depth tokens = (piece,
          (splitPieces isSeparator 0 more).1 :: (splitPieces isSeparator 0 more).2) := by
  induction tokens generalizing depth with
  | nil => exact .inl rfl
  | cons token later inductionHypothesis =>
    rw [splitPieces]
    by_cases cut : depth = 0 ∧ isSeparator token.kind = true
    · exact .inr ⟨[], token, later, rfl, cut.2, by rw [if_pos cut]⟩
    · rw [if_neg cut]
      rcases inductionHypothesis (depthAfter depth token.kind) with
        whole | ⟨piece, mark, more, rfl, separates, split⟩
      · exact .inl (by rw [whole])
      · exact .inr ⟨token :: piece, mark, more, rfl, separates, by rw [split]⟩

/-- Closed tokens are the start of the first piece. -/
theorem splitPieces_append {depth : Nat} {item : List Token}
    (closed : isClosed isSeparator depth (item.map Token.kind) = true) (rest : List Token) :
    splitPieces isSeparator depth (item ++ rest) =
      (item ++ (splitPieces isSeparator 0 rest).1, (splitPieces isSeparator 0 rest).2) := by
  induction item generalizing depth with
  | nil =>
    have atEnd : depth = 0 := by simpa [isClosed] using closed
    rw [atEnd]
    rfl
  | cons token item inductionHypothesis =>
    simp only [List.map_cons, isClosed, Bool.and_eq_true, Bool.not_eq_true',
      Bool.and_eq_false_imp] at closed
    have inside : ¬ (depth = 0 ∧ isSeparator token.kind = true) := by
      rintro ⟨atEnd, separates⟩
      simp [closed.1 (by simpa using atEnd)] at separates
    rw [List.cons_append, splitPieces, if_neg inside, inductionHypothesis closed.2]
    rfl

/-- The pieces of joined closed lists are these lists. -/
theorem splitPieces_separated {separator : TokenKind} (separates : isSeparator separator = true)
    {first : List TokenKind} {more : List (List TokenKind)} {tokens : List Token}
    (shape : tokens.map Token.kind = separated separator (first :: more))
    (closed : ∀ item ∈ first :: more, isClosed isSeparator 0 item = true) :
    (splitPieces isSeparator 0 tokens).1.map Token.kind = first ∧
      (splitPieces isSeparator 0 tokens).2.map (List.map Token.kind) = more := by
  induction more generalizing first tokens with
  | nil =>
    have whole : isClosed isSeparator 0 (tokens.map Token.kind) = true := by
      rw [shape]
      exact closed first List.mem_cons_self
    have split : splitPieces isSeparator 0 tokens = (tokens, []) := by
      simpa [splitPieces] using splitPieces_append whole []
    rw [split]
    exact ⟨shape, rfl⟩
  | cons second later inductionHypothesis =>
    obtain ⟨item, others, rfl, itemShape, othersShape⟩ := List.map_eq_append_iff.mp shape
    obtain ⟨mark, behind, rfl, markKind, behindShape⟩ := List.map_eq_cons_iff.mp othersShape
    have itemClosed : isClosed isSeparator 0 (item.map Token.kind) = true := by
      rw [itemShape]
      exact closed first List.mem_cons_self
    have laterClosed : ∀ piece ∈ second :: later, isClosed isSeparator 0 piece = true :=
      fun piece member => closed piece (List.mem_cons_of_mem _ member)
    obtain ⟨secondKinds, laterKinds⟩ := inductionHypothesis behindShape laterClosed
    have marks : isSeparator mark.kind = true := markKind ▸ separates
    have split : splitPieces isSeparator 0 (mark :: behind) =
        ([], (splitPieces isSeparator 0 behind).1 :: (splitPieces isSeparator 0 behind).2) := by
      rw [splitPieces, if_pos ⟨rfl, marks⟩]
    rw [splitPieces_append itemClosed, split]
    exact ⟨by simpa using itemShape, by simp [secondKinds, laterKinds]⟩

/-- The items of joined lists that are closed and not empty are these lists. -/
theorem kinds_splitItems {separator : TokenKind} (separates : isSeparator separator = true)
    {lists : List (List TokenKind)} {tokens : List Token}
    (shape : tokens.map Token.kind = separated separator lists)
    (closed : ∀ item ∈ lists, item ≠ [] ∧ isClosed isSeparator 0 item = true) :
    (splitItems isSeparator tokens).map (List.map Token.kind) = lists := by
  cases lists with
  | nil =>
    have nothing : tokens = [] := by simpa [separated] using shape
    simp [nothing, splitItems, splitPieces]
  | cons first more =>
    obtain ⟨firstKinds, moreKinds⟩ :=
      splitPieces_separated separates shape (fun item member => (closed item member).2)
    have pieces : ((splitPieces isSeparator 0 tokens).1 :: (splitPieces isSeparator 0 tokens).2).map
        (List.map Token.kind) = first :: more := by
      rw [List.map_cons, firstKinds, moreKinds]
    have kept : ∀ item ∈ (splitPieces isSeparator 0 tokens).1 ::
        (splitPieces isSeparator 0 tokens).2, (!item.isEmpty) = true := by
      intro item member
      have listed : item.map Token.kind ∈ first :: more := by
        rw [← pieces]
        exact List.mem_map_of_mem member
      have some := (closed _ listed).1
      simpa using some
    have items : splitItems isSeparator tokens =
        (splitPieces isSeparator 0 tokens).1 :: (splitPieces isSeparator 0 tokens).2 :=
      List.filter_eq_self.mpr kept
    rw [items, pieces]

/-- Items that are read by their kinds alone are read as what these kinds stand for. -/
theorem map_of_kinds {α β : Type} {items : List (List Token)} {spellings : List α}
    {kindsOf : α → List TokenKind} {read : List Token → β} {meaning : α → β}
    (shape : items.map (List.map Token.kind) = spellings.map kindsOf)
    (reads : ∀ item spelling, item.map Token.kind = kindsOf spelling →
      read item = meaning spelling) :
    items.map read = spellings.map meaning := by
  induction items generalizing spellings with
  | nil => simp_all
  | cons item items inductionHypothesis =>
    obtain ⟨spelling, later, rfl, itemShape, laterShape⟩ := List.map_eq_cons_iff.mp shape.symm
    rw [List.map_cons, List.map_cons, reads item spelling itemShape.symm,
      inductionHypothesis laterShape.symm]

/-- A token that opens a clause is no name. -/
theorem Token.name?_of_opensClause {token : Token} (opens : token.opensClause = true) :
    token.name? = none := by
  unfold Token.opensClause TokenKind.opensClause at opens
  unfold Token.name?
  split <;> simp_all

/-- The body of a clause starts with the tokens in front of it that open none. -/
theorem clauseBody_inside {front : List Token}
    (inside : ∀ token ∈ front, token.opensClause = false) (rest : List Token) :
    clauseBody (front ++ rest) = front ++ clauseBody rest :=
  List.takeWhile_append_of_pos fun token member => by rw [inside token member]; rfl

/-- Whether a query text can go on with some tokens after a clause: there are
none, or the first one opens the next clause. -/
def AfterClause (rest : List Token) : Prop := ∀ token ∈ rest.head?, token.opensClause = true

/-- Tokens before a clause ends are its body. -/
theorem clauseBody_append {body rest : List Token}
    (inside : ∀ token ∈ body, token.opensClause = false) (after : AfterClause rest) :
    clauseBody (body ++ rest) = body ∧ (body ++ rest).find? Token.opensClause = rest.head? := by
  induction body with
  | nil =>
    cases rest with
    | nil => exact ⟨rfl, rfl⟩
    | cons token rest =>
      have opens : token.opensClause = true := after token rfl
      simp [clauseBody, opens]
  | cons token body inductionHypothesis =>
    have here : token.opensClause = false := inside token List.mem_cons_self
    obtain ⟨bodySame, endingSame⟩ :=
      inductionHypothesis fun other member => inside other (List.mem_cons_of_mem _ member)
    refine ⟨?_, ?_⟩
    · simpa [clauseBody, here] using bodySame
    · simpa [here] using endingSame

/-- The tokens up to the next clause and the tokens from there on. -/
theorem exists_clauseBody (tokens : List Token) :
    ∃ body rest, tokens = body ++ rest ∧ (∀ token ∈ body, token.opensClause = false) ∧
      AfterClause rest := by
  refine ⟨clauseBody tokens, tokens.dropWhile fun token => !token.opensClause,
    List.takeWhile_append_dropWhile.symm, ?_, ?_⟩
  · intro token member
    simpa using List.all_eq_true.mp List.all_takeWhile token member
  · intro token ahead
    have stopped := List.head?_dropWhile_not (fun token : Token => !token.opensClause) tokens
    rw [Option.mem_def.mp ahead] at stopped
    simpa using stopped

/-- Tokens that open no clause add no clause. -/
theorem clausesOf_append {body rest : List Token}
    (inside : ∀ token ∈ body, token.opensClause = false) :
    clausesOf (body ++ rest) = clausesOf rest := by
  induction body with
  | nil => rfl
  | cons token body inductionHypothesis =>
    have here : token.opensClause = false := inside token List.mem_cons_self
    have noOpening : token.opening? = none := by
      unfold Token.opensClause TokenKind.opensClause at here
      unfold Token.opening?
      split <;> simp_all
    rw [List.cons_append, clausesOf, noOpening]
    exact inductionHypothesis fun other member => inside other (List.mem_cons_of_mem _ member)

/-- A clause adds what it says, and the rest of the text says what it says alone. -/
theorem ofTokens_clause {token : Token} {word : Keyword} (kind : token.kind = .keyword word)
    (opens : word.opensClause = true) {body rest : List Token}
    (inside : ∀ token ∈ body, token.opensClause = false) (after : AfterClause rest) :
    Query.ofTokens (token :: (body ++ rest)) =
      (Clause.query ⟨word, body, rest.head?⟩).merge (Query.ofTokens rest) := by
  obtain ⟨bodySame, endingSame⟩ := clauseBody_append inside after
  have opening : token.opening? = some word := by simp [Token.opening?, kind, opens]
  rw [Query.ofTokens, clausesOf, opening]
  simp only [bodySame, endingSame, clausesOf_append inside]
  rfl

/-- The merge of some queries and then of others is the merge of all of them. -/
theorem mergeAll_append (first second : List Query) :
    mergeAll (first ++ second) = (mergeAll first).merge (mergeAll second) := by
  induction first with
  | nil => exact (Query.merge_empty_left _).symm
  | cons query first inductionHypothesis =>
    calc mergeAll (query :: first ++ second)
        = query.merge (mergeAll (first ++ second)) := rfl
      _ = query.merge ((mergeAll first).merge (mergeAll second)) := by rw [inductionHypothesis]
      _ = (mergeAll (query :: first)).merge (mergeAll second) := (Query.merge_assoc _ _ _).symm

/-- The merge of queries joins their lists, and the first table that is named counts. -/
theorem mergeAll_eq (queries : List Query) :
    mergeAll queries = {
      fields := queries.flatMap Query.fields
      aggregations := queries.flatMap Query.aggregations
      table := ((queries.map Query.table).find? fun table => table ≠ "").getD ""
      conditions := queries.flatMap Query.conditions
      grouping := queries.flatMap Query.grouping } := by
  induction queries with
  | nil => rfl
  | cons query later inductionHypothesis =>
    rw [mergeAll, List.foldr_cons, ← mergeAll, inductionHypothesis, Query.merge]
    by_cases named : query.table = ""
    · simp [named]
    · simp [named]

end MetricQuery
