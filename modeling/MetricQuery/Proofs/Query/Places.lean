import MetricQuery.Proofs.Token.Reading
import MetricQuery.Query.Reading

/-!
# Places do not matter

The tokens of a text carry their places, and these places move when something is
written in front of the text. Messages quote them, but a query does not: names,
values and items come from the kinds of tokens, or from their own texts and the
gaps between them.

The main statement is that tokens write the same query wherever they are placed.
-/

namespace MetricQuery

/-- A token without its place. -/
def Token.unplaced (token : Token) : Token := { token with start := 0 }

namespace Token

@[simp] theorem kind_unplaced (token : Token) : token.unplaced.kind = token.kind := rfl

@[simp] theorem gap_unplaced (token : Token) : token.unplaced.gap = token.gap := rfl

@[simp] theorem text_unplaced (token : Token) : token.unplaced.text = token.text := rfl

@[simp] theorem name?_unplaced (token : Token) : token.unplaced.name? = token.name? := rfl

@[simp] theorem opening?_unplaced (token : Token) : token.unplaced.opening? = token.opening? := rfl

@[simp] theorem opensClause_unplaced (token : Token) :
    token.unplaced.opensClause = token.opensClause := rfl

end Token

/-- Tokens that are placed elsewhere differ in their places alone. -/
theorem unplaced_placed (start : Nat) (tokens : List Token) :
    (placed start tokens).map Token.unplaced = tokens.map Token.unplaced := by
  induction tokens generalizing start with
  | nil => rfl
  | cons token later inductionHypothesis =>
    rw [placed, List.map_cons, List.map_cons, inductionHypothesis]
    rfl

/-- The text of tokens does not depend on their places. -/
@[simp] theorem textOf_unplaced (tokens : List Token) :
    textOf (tokens.map Token.unplaced) = textOf tokens := by
  cases tokens with
  | nil => rfl
  | cons first later => simp [textOf, List.flatMap_map]

/-- The field that tokens refer to does not depend on their places. -/
@[simp] theorem fieldName_unplaced (tokens : List Token) :
    fieldName (tokens.map Token.unplaced) = fieldName tokens := by
  have text := textOf_unplaced tokens
  rcases tokens with _ | ⟨first, _ | ⟨second, _ | ⟨third, _ | ⟨fourth, later⟩⟩⟩⟩ <;>
    simp_all [fieldName]

/-- The value that tokens write does not depend on their places. -/
@[simp] theorem literalValue_unplaced (tokens : List Token) :
    literalValue (tokens.map Token.unplaced) = literalValue tokens := by
  have text := textOf_unplaced tokens
  rcases tokens with _ | ⟨first, _ | ⟨second, later⟩⟩ <;> simp_all [literalValue]

section Lists

variable {isSeparator : TokenKind → Bool}

/-- Pieces are cut at the same tokens in every place. -/
theorem splitPieces_unplaced (depth : Nat) (tokens : List Token) :
    splitPieces isSeparator depth (tokens.map Token.unplaced) =
      ((splitPieces isSeparator depth tokens).1.map Token.unplaced,
        (splitPieces isSeparator depth tokens).2.map (List.map Token.unplaced)) := by
  induction tokens generalizing depth with
  | nil => rfl
  | cons token later inductionHypothesis =>
    by_cases separates : depth = 0 ∧ isSeparator token.kind = true
    · simp [splitPieces, separates, inductionHypothesis]
    · simp [splitPieces, separates, inductionHypothesis]

/-- The items of tokens are the same in every place. -/
theorem splitItems_unplaced (tokens : List Token) :
    splitItems isSeparator (tokens.map Token.unplaced) =
      (splitItems isSeparator tokens).map (List.map Token.unplaced) := by
  have kept : (fun item : List Token => !item.isEmpty) ∘ List.map Token.unplaced =
      fun item => !item.isEmpty := by
    funext item
    cases item <;> rfl
  simp only [splitItems, splitPieces_unplaced]
  rw [← List.map_cons, List.filter_map, kept]

/-- What is read from each item alone does not depend on the places, if it does
not for one item. -/
theorem map_splitItems_unplaced {β : Type} (read : List Token → β)
    (same : ∀ item, read (item.map Token.unplaced) = read item) (tokens : List Token) :
    (splitItems isSeparator (tokens.map Token.unplaced)).map read =
      (splitItems isSeparator tokens).map read := by
  rw [splitItems_unplaced, List.map_map]
  exact List.map_congr_left fun item _ => same item

end Lists

/-- A parenthesis is closed by the same token in every place. -/
theorem splitClosing_unplaced (depth : Nat) (tokens : List Token) :
    splitClosing depth (tokens.map Token.unplaced) =
      (splitClosing depth tokens).map fun (inside, after) =>
        (inside.map Token.unplaced, after.map Token.unplaced) := by
  induction tokens generalizing depth with
  | nil => rfl
  | cons token later inductionHypothesis =>
    by_cases closes : token.kind = .closeParen ∧ depth = 0
    · simp [splitClosing, closes]
    · simp only [List.map_cons, splitClosing, Token.kind_unplaced, if_neg closes,
        inductionHypothesis, Option.map_map]
      rfl

/-- The column of a call does not depend on the places of its tokens. -/
theorem columnOf_unplaced (field : List Char) (after : List Token) :
    columnOf field (after.map Token.unplaced) = columnOf field after := by
  rcases after with _ | ⟨asWord, _ | ⟨name, later⟩⟩
  · rfl
  · rfl
  · have single := fieldName_unplaced [name]
    rw [List.map_singleton] at single
    simp [columnOf, single]

/-- Whether tokens are a call, and of what, does not depend on their places. -/
theorem readCall?_unplaced (item : List Token) :
    readCall? (item.map Token.unplaced) = readCall? item := by
  rcases item with _ | ⟨function, _ | ⟨paren, later⟩⟩
  · rfl
  · rfl
  · simp only [List.map_cons, readCall?, Token.kind_unplaced, splitClosing_unplaced]
    split
    · cases splitClosing 0 later with
      | none => rfl
      | some parts => simp [columnOf_unplaced]
    · rfl

/-- An item of a select list does not depend on the places of its tokens. -/
theorem readSelectItem_unplaced (item : List Token) :
    readSelectItem (item.map Token.unplaced) = readSelectItem item := by
  rw [readSelectItem, readSelectItem, readCall?_unplaced, fieldName_unplaced]

/-- A condition that is understood does not depend on the places of its tokens. A
fault may name a token with its place. -/
theorem readCondition_unplaced (tokens : List Token) :
    (readCondition (tokens.map Token.unplaced)).toOption = (readCondition tokens).toOption := by
  rcases tokens with _ | ⟨field, _ | ⟨sign, value⟩⟩
  · rfl
  · rfl
  · simp only [List.map_cons, readCondition, Token.name?_unplaced, Token.kind_unplaced,
      List.isEmpty_map, literalValue_unplaced]
    cases field.name? with
    | none => rfl
    | some name =>
      cases comparisonOf? sign.kind with
      | none => rfl
      | some comparison => cases value <;> rfl

/-- What was understood is what remains without the faults. -/
theorem understood_eq_filterMap {ε α : Type} (results : List (Except ε α)) :
    understood results = results.filterMap Except.toOption := by
  induction results with
  | nil => rfl
  | cons result results inductionHypothesis =>
    cases result with
    | error fault => exact inductionHypothesis
    | ok value => exact congrArg (value :: ·) inductionHypothesis

/-- The conditions that are understood do not depend on the places of tokens. -/
theorem understood_readConditions_unplaced (body : List Token) :
    understood (readConditions (body.map Token.unplaced)) = understood (readConditions body) := by
  have same : (Except.toOption ∘ readCondition) ∘ List.map Token.unplaced =
      Except.toOption ∘ readCondition := funext readCondition_unplaced
  simp only [understood_eq_filterMap, readConditions, splitItems_unplaced, List.filterMap_map, same]

/-- A clause with its tokens without their places. -/
def Clause.unplaced (clause : Clause) : Clause :=
  ⟨clause.opening, clause.body.map Token.unplaced, clause.ending.map Token.unplaced⟩

/-- What a clause says does not depend on the places of its tokens. The cases are
the keywords that open a clause. -/
theorem Clause.query_unplaced (clause : Clause) : clause.unplaced.query = clause.query := by
  obtain ⟨opening, body, ending⟩ := clause
  cases opening with
  | SELECT =>
    have same (item : List Token) :
        (readSelectItem (item.map Token.unplaced)).query = (readSelectItem item).query :=
      congrArg SelectItem.query (readSelectItem_unplaced item)
    exact congrArg mergeAll (map_splitItems_unplaced _ same body)
  | FROM =>
    have name : ((body.map Token.unplaced).head?.or (ending.map Token.unplaced)).bind Token.name? =
        (body.head?.or ending).bind Token.name? := by
      cases body <;> cases ending <;> rfl
    simp only [query, unplaced, ahead, readTable, name]
    cases (body.head?.or ending).bind Token.name? <;> rfl
  | WHERE =>
    exact congrArg (fun conditions => ({ conditions } : Query))
      (understood_readConditions_unplaced body)
  | GROUP =>
    cases body with
    | nil => rfl
    | cons token later =>
      let name (item : List Token) : String := String.ofList (fieldName item)
      have fields : (splitItems isComma (later.map Token.unplaced)).map name =
          (splitItems isComma later).map name :=
        map_splitItems_unplaced name
          (fun item => congrArg String.ofList (fieldName_unplaced item)) later
      by_cases by' : token.kind = .keyword .BY
      · simp only [query, unplaced, List.map_cons, readGrouping, Token.kind_unplaced, by', if_true]
        exact congrArg (fun grouping => ({ grouping } : Query)) fields
      · simp [query, unplaced, readGrouping, by']
  | BY | AS | AND | LIKE => rfl

/-- The clauses of tokens are the same in every place. -/
theorem clausesOf_unplaced (tokens : List Token) :
    clausesOf (tokens.map Token.unplaced) = (clausesOf tokens).map Clause.unplaced := by
  have opens : Token.opensClause ∘ Token.unplaced = Token.opensClause := rfl
  have inside : (fun token : Token => !token.opensClause) ∘ Token.unplaced =
      fun token => !token.opensClause := rfl
  induction tokens with
  | nil => rfl
  | cons token later inductionHypothesis =>
    simp only [List.map_cons, clausesOf, Token.opening?_unplaced]
    cases token.opening? with
    | none => exact inductionHypothesis
    | some word =>
      simp [inductionHypothesis, Clause.unplaced, clauseBody, List.takeWhile_map, List.find?_map,
        opens, inside]

/-- Tokens write the same query wherever they are placed. -/
theorem Query.ofTokens_unplaced (tokens : List Token) :
    Query.ofTokens (tokens.map Token.unplaced) = Query.ofTokens tokens := by
  rw [ofTokens, clausesOf_unplaced, List.map_map, ofTokens]
  exact congrArg mergeAll (List.map_congr_left fun clause _ => clause.query_unplaced)

/-- Placing tokens does not change the query that they write. -/
theorem Query.ofTokens_placed (start : Nat) (tokens : List Token) :
    Query.ofTokens (placed start tokens) = Query.ofTokens tokens := by
  rw [← ofTokens_unplaced, unplaced_placed, ofTokens_unplaced]

end MetricQuery
