import MetricQuery.Proofs.Query.Clauses

/-!
# Elements of a list are read alone

Three clauses hold lists: the select list, the conditions and the fields of a grouping. An
element of such a list may be any text, also one that makes no sense. It has to keep to
itself in three ways: it starts no clause, it leaves no quoted token open, and it closes
every parenthesis that it opens. Then a separator on a line of its own ends it as the end
of the text would.

The reason is the same for all three. Pieces are cut by a count of open parentheses that
is back at zero behind the element, so what is cut off in front of the separator does not
depend on what comes behind it, and the pieces behind it are cut as from the start. Each
piece is read by itself and adds to the query by itself. What moves when texts are joined
are places and the gap before the first token of an element, and no piece is read
differently for either.

The main statement is that a list of elements adds to the query what its elements add
alone, one after the other. An element with separators of its own is several pieces either
way, and one that is not understood is left out or kept without a change to the others.
-/

namespace MetricQuery

/-- The number of parentheses that some kinds of tokens leave open. One that closes without
an open one closes nothing. -/
def openParens (kinds : List TokenKind) : Nat := kinds.foldl depthAfter 0

/-- Tokens with another gap before the first one. -/
def regapped (gap : List Char) : List Token → List Token
  | [] => []
  | token :: later => { token with gap } :: later

/-- The body of a clause is the same up to the gap before its first token. -/
theorem clauseBody_regapped (gap : List Char) (tokens : List Token) :
    clauseBody (regapped gap tokens) = regapped gap (clauseBody tokens) := by
  cases tokens with
  | nil => rfl
  | cons token later =>
    have moved : Token.opensClause { token with gap } = token.opensClause := rfl
    cases opens : token.opensClause <;> simp [regapped, clauseBody, moved, opens]

/-! ## Pieces -/

section Pieces

variable {isSeparator : TokenKind → Bool}

/-- Behind tokens that leave no parenthesis open a separator ends the last piece, and the
tokens behind it are cut as if they stood alone. -/
theorem splitPieces_separator (level : ∀ kind, isSeparator kind = true → depthAfter 0 kind = 0)
    {mark : Token} (separates : isSeparator mark.kind = true) (rest : List Token) {depth : Nat}
    {item : List Token} (closed : (item.map Token.kind).foldl depthAfter depth = 0) :
    splitPieces isSeparator depth (item ++ mark :: rest) =
      ((splitPieces isSeparator depth item).1,
        (splitPieces isSeparator depth item).2 ++
          (splitPieces isSeparator 0 rest).1 :: (splitPieces isSeparator 0 rest).2) := by
  induction item generalizing depth with
  | nil =>
    obtain rfl : depth = 0 := closed
    simp only [List.nil_append, splitPieces, separates, and_self, if_true]
  | cons token item inductionHypothesis =>
    rw [List.map_cons, List.foldl_cons] at closed
    rw [List.cons_append, splitPieces, splitPieces]
    by_cases cut : depth = 0 ∧ isSeparator token.kind = true
    · obtain ⟨rfl, here⟩ := cut
      rw [level _ here] at closed
      simp only [here, and_self, if_true, inductionHypothesis closed, List.cons_append]
    · simp only [if_neg cut, inductionHypothesis closed]

/-- The items of tokens with a separator between them are those of both sides, if the first
side leaves no parenthesis open. -/
theorem splitItems_separator (level : ∀ kind, isSeparator kind = true → depthAfter 0 kind = 0)
    {mark : Token} (separates : isSeparator mark.kind = true) {item : List Token}
    (closed : openParens (item.map Token.kind) = 0) (rest : List Token) :
    splitItems isSeparator (item ++ mark :: rest) =
      splitItems isSeparator item ++ splitItems isSeparator rest := by
  simp only [splitItems, splitPieces_separator level separates rest closed]
  rw [← List.cons_append, List.filter_append]

/-- What is read from each item alone does not depend on the gap before the first token, if
it does not for one item. -/
theorem map_splitItems_regapped {β : Type} {read : List Token → β}
    (same : ∀ gap item, read (regapped gap item) = read item) (gap : List Char)
    (tokens : List Token) :
    (splitItems isSeparator (regapped gap tokens)).map read =
      (splitItems isSeparator tokens).map read := by
  cases tokens with
  | nil => rfl
  | cons token later =>
    simp only [regapped, splitItems, splitPieces]
    cases cut : isSeparator token.kind with
    | true => rfl
    | false =>
      -- The first item starts with the token, whose gap is the only difference.
      have first := same gap (token :: (splitPieces isSeparator (depthAfter 0 token.kind) later).1)
      rw [regapped] at first
      simp [first]

end Pieces

/-! ## Items -/

/-- The field that tokens refer to does not depend on the gap before the first one. -/
theorem fieldName_regapped (gap : List Char) (tokens : List Token) :
    fieldName (regapped gap tokens) = fieldName tokens := by
  rcases tokens with _ | ⟨first, _ | ⟨second, _ | ⟨third, _ | ⟨fourth, later⟩⟩⟩⟩ <;> rfl

/-- Whether tokens are a call, and of what, does not depend on the gap before the first one. -/
theorem readCall?_regapped (gap : List Char) (item : List Token) :
    readCall? (regapped gap item) = readCall? item := by
  rcases item with _ | ⟨function, _ | ⟨paren, later⟩⟩ <;> rfl

/-- A condition that is understood does not depend on the gap before its first token. -/
theorem readCondition_regapped (gap : List Char) (tokens : List Token) :
    (readCondition (regapped gap tokens)).toOption = (readCondition tokens).toOption := by
  rcases tokens with _ | ⟨field, _ | ⟨sign, value⟩⟩
  · rfl
  · rfl
  · have name : Token.name? { field with gap } = field.name? := rfl
    simp only [regapped, readCondition, name]
    cases field.name? <;> rfl

/-! ## Clauses with lists -/

/-- The clauses that hold lists. -/
inductive ListClause where
  | select
  | conditions
  | grouping
  deriving DecidableEq, Repr

namespace ListClause

/-- The keywords in front of a list. -/
def opening : ListClause → String
  | select => "SELECT"
  | conditions => "WHERE"
  | grouping => "GROUP BY"

/-- What stands between the elements of a list. -/
def mark : ListClause → String
  | conditions => "AND"
  | select | grouping => ","

/-- Whether a token separates the elements of a list. -/
def isSeparator : ListClause → TokenKind → Bool
  | conditions => isAnd
  | select | grouping => isComma

/-- What an item of a list adds to a query. -/
def itemQuery (list : ListClause) (item : List Token) : Query :=
  match list with
  | select => (readSelectItem item).query
  | conditions =>
      match readCondition item with
      | .ok condition => { conditions := [condition] }
      | .error _ => {}
  | grouping => { grouping := [String.ofList (fieldName item)] }

/-- The tokens of the keywords in front of a list. -/
def head (list : ListClause) : List Token := (scan list.opening.toList).tokens

variable (list : ListClause)

/-- A separator is a comma or the keyword between conditions. -/
theorem kind_separator {kind : TokenKind} (separates : list.isSeparator kind = true) :
    kind = .comma ∨ kind = .keyword .AND := by
  cases list with
  | conditions => exact .inr (of_decide_eq_true separates)
  | select => exact .inl (of_decide_eq_true separates)
  | grouping => exact .inl (of_decide_eq_true separates)

/-- A separator is no parenthesis. -/
theorem depthAfter_separator (kind : TokenKind) (separates : list.isSeparator kind = true) :
    depthAfter 0 kind = 0 := by
  rcases list.kind_separator separates with rfl | rfl <;> rfl

/-- A separator opens no clause. -/
theorem opensClause_separator {token : Token} (separates : list.isSeparator token.kind = true) :
    token.opensClause = false := by
  unfold Token.opensClause
  rcases list.kind_separator separates with kind | kind <;> rw [kind] <;> rfl

/-- What an item adds does not depend on the gap before its first token. -/
theorem itemQuery_regapped (gap : List Char) (item : List Token) :
    list.itemQuery (regapped gap item) = list.itemQuery item := by
  cases list with
  | select =>
    simp only [itemQuery, readSelectItem, readCall?_regapped, fieldName_regapped]
  | grouping => simp only [itemQuery, fieldName_regapped]
  | conditions =>
    have same := readCondition_regapped gap item
    simp only [itemQuery]
    cases moved : readCondition (regapped gap item) <;> cases own : readCondition item <;>
      simp_all [Except.toOption]

/-- What a list adds to a query: what its items add, one after the other. -/
def items (tokens : List Token) : Query :=
  mergeAll ((splitItems list.isSeparator tokens).map list.itemQuery)

/-- Items that are conditions add the ones that are understood. -/
theorem mergeAll_conditions (items : List (List Token)) :
    mergeAll (items.map conditions.itemQuery) =
      { conditions := understood (items.map readCondition) } := by
  induction items with
  | nil => rfl
  | cons item items inductionHypothesis =>
    rw [List.map_cons, mergeAll, List.foldr_cons, ← mergeAll, inductionHypothesis]
    cases read : readCondition item <;> simp [itemQuery, read, understood, Query.merge]

/-- Items that are fields of a grouping add these fields. -/
theorem mergeAll_grouping (items : List (List Token)) :
    mergeAll (items.map grouping.itemQuery) =
      { grouping := items.map fun item => String.ofList (fieldName item) } := by
  induction items with
  | nil => rfl
  | cons item items inductionHypothesis =>
    rw [List.map_cons, mergeAll, List.foldr_cons, ← mergeAll, inductionHypothesis]
    rfl

/-- Tokens behind the keywords of a list write what the items up to the next clause add,
and then what they write without the keywords. -/
theorem ofTokens_head (tokens : List Token) :
    Query.ofTokens (list.head ++ tokens) =
      (list.items (clauseBody tokens)).merge (Query.ofTokens tokens) := by
  cases list with
  | select =>
    have front : head select = [⟨.keyword .SELECT, [], "SELECT".toList, 0⟩] := by decide +kernel
    rw [front]
    rfl
  | conditions =>
    have front : head conditions = [⟨.keyword .WHERE, [], "WHERE".toList, 0⟩] := by decide +kernel
    rw [front, items, mergeAll_conditions]
    rfl
  | grouping =>
    have front : head grouping = [⟨.keyword .GROUP, [], "GROUP".toList, 0⟩,
        ⟨.keyword .BY, [' '], "BY".toList, 6⟩] := by decide +kernel
    rw [front, items, mergeAll_grouping]
    rfl

/-- The gap before the first token behind the keywords of a list does not matter. -/
theorem ofTokens_regapped (gap : List Char) (tokens : List Token) :
    Query.ofTokens (list.head ++ regapped gap tokens) = Query.ofTokens (list.head ++ tokens) := by
  have body : list.items (clauseBody (regapped gap tokens)) = list.items (clauseBody tokens) := by
    rw [clauseBody_regapped]
    exact congrArg mergeAll (map_splitItems_regapped list.itemQuery_regapped gap _)
  have behind : Query.ofTokens (regapped gap tokens) = Query.ofTokens tokens := by
    cases tokens <;> rfl
  rw [ofTokens_head, ofTokens_head, body, behind]

/-- The places of the tokens behind the keywords of a list do not matter. -/
theorem ofTokens_placed (start : Nat) (tokens : List Token) :
    Query.ofTokens (list.head ++ placed start tokens) = Query.ofTokens (list.head ++ tokens) := by
  rw [← Query.ofTokens_unplaced, List.map_append, unplaced_placed, ← List.map_append,
    Query.ofTokens_unplaced]

/-- A list with a separator behind tokens that keep to themselves writes what it writes with
these tokens alone, and then what it writes with the tokens behind the separator. -/
theorem ofTokens_separated {item : List Token}
    (inside : ∀ token ∈ item, token.opensClause = false)
    (closed : openParens (item.map Token.kind) = 0) {mark : Token}
    (separates : list.isSeparator mark.kind = true) (rest : List Token) :
    Query.ofTokens (list.head ++ (item ++ mark :: rest)) =
      (Query.ofTokens (list.head ++ item)).merge (Query.ofTokens (list.head ++ rest)) := by
  have markInside : ∀ token ∈ item ++ [mark], token.opensClause = false := by
    intro token member
    rcases List.mem_append.mp member with here | last
    · exact inside token here
    · obtain rfl := List.mem_singleton.mp last
      exact list.opensClause_separator separates
  have split : item ++ mark :: rest = (item ++ [mark]) ++ rest := by simp
  have body : clauseBody (item ++ mark :: rest) = item ++ mark :: clauseBody rest := by
    rw [split, clauseBody_inside markInside, List.append_assoc, List.singleton_append]
  have behind : Query.ofTokens (item ++ mark :: rest) = Query.ofTokens rest := by
    rw [split, Query.ofTokens, clausesOf_append markInside, ← Query.ofTokens]
  have alone : clauseBody item = item ∧ Query.ofTokens item = {} := by
    have own : clauseBody (item ++ []) = item ++ [] := clauseBody_inside inside []
    have none : clausesOf (item ++ []) = [] := clausesOf_append inside
    rw [List.append_nil] at own none
    constructor
    · exact own
    · rw [Query.ofTokens, none]
      rfl
  have joined : list.items (item ++ mark :: clauseBody rest) =
      (list.items item).merge (list.items (clauseBody rest)) := by
    rw [items, splitItems_separator list.depthAfter_separator separates closed, List.map_append,
      mergeAll_append]
    rfl
  rw [ofTokens_head, ofTokens_head, ofTokens_head, body, alone.1, joined, alone.2, behind,
    Query.merge_empty_right, Query.merge_assoc]

end ListClause

/-! ## Texts -/

/-- Whether a text can be an element of a list: it keeps to itself, whatever else it says. -/
structure IsElement (text : List Char) : Prop where
  /-- No token starts a clause. -/
  inside : ∀ token ∈ (scan text).tokens, token.opensClause = false
  /-- No quoted token is left open. -/
  quotes : LeavesNothingOpen text
  /-- Every parenthesis that is opened is closed again. -/
  parens : openParens ((scan text).tokens.map Token.kind) = 0

instance (text : List Char) : Decidable (IsElement text) :=
  decidable_of_iff ((∀ token ∈ (scan text).tokens, token.opensClause = false) ∧
      LeavesNothingOpen text ∧ openParens ((scan text).tokens.map Token.kind) = 0)
    ⟨fun ⟨inside, quotes, parens⟩ => ⟨inside, quotes, parens⟩,
      fun is => ⟨is.inside, is.quotes, is.parens⟩⟩

/-- The tokens of joined texts are those of both, up to one gap. -/
theorem exists_joinedTokens (first second : Scan) :
    ∃ gap, joinedTokens first second = first.tokens ++ regapped gap second.tokens := by
  unfold joinedTokens
  cases second.tokens with
  | nil => exact ⟨[], rfl⟩
  | cons token later => exact ⟨_, rfl⟩

namespace ListClause

variable (list : ListClause)

/-- The keywords in front of a list leave nothing open. -/
theorem opening_closed : LeavesNothingOpen list.opening.toList := by
  cases list <;> decide +kernel

/-- What stands between two elements is one token, a separator. -/
theorem scan_mark :
    LeavesNothingOpen list.mark.toList ∧ ∃ mark, (scan list.mark.toList).tokens = [mark] ∧
      list.isSeparator mark.kind = true := by
  cases list with
  | conditions => exact ⟨by decide +kernel, ⟨.keyword .AND, [], "AND".toList, 0⟩, by decide +kernel⟩
  | select => exact ⟨by decide +kernel, ⟨.comma, [], [','], 0⟩, by decide +kernel⟩
  | grouping => exact ⟨by decide +kernel, ⟨.comma, [], [','], 0⟩, by decide +kernel⟩

/-- A separator and a text on a new line behind it are read as the separator and then as
the text, up to places and gaps. -/
theorem scan_behindElement (gap rest : List Char) :
    ∃ mark start restGap, list.isSeparator mark.kind = true ∧
      regapped gap (scan (list.mark.toList ++ '\n' :: rest)).tokens =
        mark :: placed start (regapped restGap (scan rest).tokens) := by
  obtain ⟨closed, mark, single, separates⟩ := list.scan_mark
  obtain ⟨restGap, joined⟩ := exists_joinedTokens (scan list.mark.toList) (scan rest)
  let behindGap := 0 + Text.byteLength mark.gap
  refine ⟨{ mark with gap, start := behindGap }, behindGap + Text.byteLength mark.text, restGap,
    separates, ?_⟩
  rw [tokens_joined closed, joined, single, List.singleton_append, placed, regapped]

/-- A text on a new line behind the keywords of a list writes what its tokens write there. -/
theorem ofText_front (text : String) :
    Query.ofText (list.opening ++ "\n" ++ text) =
      Query.ofTokens (list.head ++ (scan text.toList).tokens) := by
  have shape : (list.opening ++ "\n" ++ text).toList =
      list.opening.toList ++ '\n' :: text.toList := by simp
  obtain ⟨gap, joined⟩ := exists_joinedTokens (scan list.opening.toList) (scan text.toList)
  rw [Query.ofText, shape, tokens_joined list.opening_closed, Query.ofTokens_placed, joined,
    ← head, ofTokens_regapped]

/-- An element is read as if it stood alone, and the text behind the separator too. -/
theorem ofText_separated {element : String} (is : IsElement element.toList) (rest : String) :
    Query.ofText (list.opening ++ "\n" ++ (element ++ ("\n" ++ list.mark ++ "\n") ++ rest)) =
      (Query.ofText (list.opening ++ "\n" ++ element)).merge
        (Query.ofText (list.opening ++ "\n" ++ rest)) := by
  have shape : (element ++ ("\n" ++ list.mark ++ "\n") ++ rest).toList =
      element.toList ++ '\n' :: (list.mark.toList ++ '\n' :: rest.toList) := by simp
  obtain ⟨gap, joined⟩ := exists_joinedTokens (scan element.toList)
    (scan (list.mark.toList ++ '\n' :: rest.toList))
  obtain ⟨mark, start, restGap, separates, behind⟩ := list.scan_behindElement gap rest.toList
  rw [ofText_front, ofText_front, ofText_front, shape, tokens_joined is.quotes, ofTokens_placed,
    joined, behind, list.ofTokens_separated is.inside is.parens separates, ofTokens_placed,
    ofTokens_regapped]

/-- A list writes the merge of what its elements write alone. -/
theorem ofText_elements {elements : List String}
    (are : ∀ element ∈ elements, IsElement element.toList) :
    Query.ofText (list.opening ++ "\n" ++ ("\n" ++ list.mark ++ "\n").intercalate elements) =
      mergeAll (elements.map fun element => Query.ofText (list.opening ++ "\n" ++ element)) := by
  induction elements with
  | nil => cases list <;> decide +kernel
  | cons element later inductionHypothesis =>
    obtain ⟨here, behind⟩ := List.forall_mem_cons.mp are
    cases later with
    | nil =>
      rw [String.intercalate_singleton]
      exact (Query.merge_empty_right _).symm
    | cons next more =>
      rw [String.intercalate_cons_cons, ofText_separated list here, inductionHypothesis behind]
      rfl

end ListClause

/-- Elements of a list are read alone. Texts that start no clause, leave no quoted token
open and close every parenthesis they open are conditions, items of a select list or fields
of a grouping in a row as they are each by itself, whatever they say: the list is what they
are read as one after the other. -/
theorem elements_read_alone (elements : List String)
    (are : ∀ element ∈ elements, IsElement element.toList) :
    (Query.ofText ("WHERE\n" ++ "\nAND\n".intercalate elements)).conditions =
        elements.flatMap (fun element => (Query.ofText ("WHERE\n" ++ element)).conditions) ∧
      (Query.ofText ("SELECT\n" ++ "\n,\n".intercalate elements)).fields =
        elements.flatMap (fun element => (Query.ofText ("SELECT\n" ++ element)).fields) ∧
      (Query.ofText ("SELECT\n" ++ "\n,\n".intercalate elements)).aggregations =
        elements.flatMap (fun element => (Query.ofText ("SELECT\n" ++ element)).aggregations) ∧
      (Query.ofText ("GROUP BY\n" ++ "\n,\n".intercalate elements)).grouping =
        elements.flatMap (fun element => (Query.ofText ("GROUP BY\n" ++ element)).grouping) := by
  have conditions := ListClause.conditions.ofText_elements are
  have select := ListClause.select.ofText_elements are
  have grouping := ListClause.grouping.ofText_elements are
  rw [mergeAll_eq] at conditions select grouping
  refine ⟨?_, ?_, ?_, ?_⟩
  · exact (congrArg Query.conditions conditions).trans (List.flatMap_map ..)
  · exact (congrArg Query.fields select).trans (List.flatMap_map ..)
  · exact (congrArg Query.aggregations select).trans (List.flatMap_map ..)
  · exact (congrArg Query.grouping grouping).trans (List.flatMap_map ..)

/-- A comment, an empty element, a surplus parenthesis and separators of its own all stay
with their element. -/
theorem broken_elements_read_alone :
    let elements := ["a = 1 -- note", "", ") b >", "(c AND d) = 2 AND e LIKE 'x,AND'",
      "sum(f, g) AS h"]
    (∀ element ∈ elements, IsElement element.toList) ∧
      (Query.ofText ("WHERE\n" ++ "\nAND\n".intercalate elements)).conditions =
        [⟨"a", .equal, "1"⟩, ⟨"e", .like, "x,AND"⟩] ∧
      (Query.ofText ("SELECT\n" ++ "\n,\n".intercalate elements)).fields =
        ["a = 1", ") b >", "(c AND d) = 2 AND e LIKE 'x,AND'"] ∧
      (Query.ofText ("SELECT\n" ++ "\n,\n".intercalate elements)).aggregations =
        [⟨.sum, "f, g", "h"⟩] ∧
      (Query.ofText ("GROUP BY\n" ++ "\n,\n".intercalate elements)).grouping =
        ["a = 1", ") b >", "(c AND d) = 2 AND e LIKE 'x,AND'", "sum(f, g) AS h"] := by
  intro elements
  have are : ∀ element ∈ elements, IsElement element.toList := by decide +kernel
  obtain ⟨conditions, fields, aggregations, grouping⟩ := elements_read_alone elements are
  rw [conditions, fields, aggregations, grouping]
  exact ⟨are, by decide +kernel, by decide +kernel, by decide +kernel, by decide +kernel⟩

end MetricQuery
