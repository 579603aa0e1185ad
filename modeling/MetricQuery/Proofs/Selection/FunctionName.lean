import MetricQuery.Proofs.Selection.RoundTrip
import MetricQuery.Proofs.Token.Apart

/-!
# What the name of a function can do to a statement

A statement writes names of tables and fields in quotes, and the name of a function as
it is. The name is any text, so it can go on where the name should end: it can open
another clause, or a comment or a quoted token that takes in what stands behind it.

If the name leaves nothing open, everything behind it is read as it was written. The
select list may then be read in any way, also as further clauses, but the statement is
read as what the select list says and then the table, the filters and the grouping. The
main statement is that these are the only ones if no token of the name is the keyword of
another clause.
-/

namespace MetricQuery

open Statement

/-! ## Select lists alone -/

/-- Whether a query says nothing but what a select list can say. -/
structure Query.IsSelectList (query : Query) : Prop where
  /-- It names no table. -/
  table : query.table = ""
  /-- It has no conditions. -/
  conditions : query.conditions = []
  /-- It groups by nothing. -/
  grouping : query.grouping = []

/-- What several select lists say, a select list can say. -/
theorem isSelectList_mergeAll {queries : List Query}
    (lists : ∀ query ∈ queries, query.IsSelectList) : (mergeAll queries).IsSelectList := by
  induction queries with
  | nil => exact ⟨rfl, rfl, rfl⟩
  | cons query later inductionHypothesis =>
    obtain ⟨here, behind⟩ := List.forall_mem_cons.mp lists
    obtain ⟨table, conditions, grouping⟩ := inductionHypothesis behind
    have merged : mergeAll (query :: later) = query.merge (mergeAll later) := rfl
    rw [merged]
    refine ⟨?_, ?_, ?_⟩
    · simp [Query.merge, here.table, table]
    · simp [Query.merge, here.conditions, conditions]
    · simp [Query.merge, here.grouping, grouping]

/-- A select list says what a select list can say. -/
theorem isSelectList_readSelect (body : List Token) : (readSelect body).IsSelectList := by
  refine isSelectList_mergeAll (List.forall_mem_map.mpr fun item _ => ?_)
  cases readSelectItem item <;> exact ⟨rfl, rfl, rfl⟩

/-- Whether a token opens a clause other than a select list. -/
def TokenKind.opensOther : TokenKind → Bool
  | keyword .FROM | keyword .WHERE | keyword .GROUP => true
  | _ => false

/-- A token opens a clause by its keyword. -/
theorem Token.kind_of_opening? {token : Token} {word : Keyword}
    (opens : token.opening? = some word) :
    token.kind = .keyword word ∧ word.opensClause = true := by
  unfold Token.opening? at opens
  split at opens
  · rename_i found kind
    split at opens
    · rename_i opensClause
      obtain rfl := Option.some.inj opens
      exact ⟨kind, opensClause⟩
    · cases opens
  · cases opens

/-- Clauses are opened by tokens. -/
theorem exists_of_mem_clausesOf {tokens : List Token} {clause : Clause}
    (member : clause ∈ clausesOf tokens) :
    ∃ token ∈ tokens, token.opening? = some clause.opening := by
  induction tokens with
  | nil => simp [clausesOf] at member
  | cons token later inductionHypothesis =>
    rw [clausesOf] at member
    cases opening : token.opening? with
    | none =>
      rw [opening] at member
      obtain ⟨found, listed, opens⟩ := inductionHypothesis member
      exact ⟨found, List.mem_cons_of_mem _ listed, opens⟩
    | some word =>
      rw [opening] at member
      rcases List.mem_cons.mp member with rfl | behind
      · exact ⟨token, List.mem_cons_self, opening⟩
      · obtain ⟨found, listed, opens⟩ := inductionHypothesis behind
        exact ⟨found, List.mem_cons_of_mem _ listed, opens⟩

/-- Tokens that open no other clause say what a select list can say. -/
theorem isSelectList_ofTokens {tokens : List Token}
    (selecting : ∀ token ∈ tokens, token.kind.opensOther = false) :
    (Query.ofTokens tokens).IsSelectList := by
  refine isSelectList_mergeAll (List.forall_mem_map.mpr fun clause member => ?_)
  obtain ⟨token, listed, opens⟩ := exists_of_mem_clausesOf member
  obtain ⟨kind, opensClause⟩ := Token.kind_of_opening? opens
  have noOther := selecting token listed
  rw [kind] at noOther
  obtain ⟨opening, body, ending⟩ := clause
  cases opening with
  | SELECT => exact isSelectList_readSelect body
  | FROM | WHERE | GROUP => cases noOther
  | BY | AS | AND | LIKE => cases opensClause

/-! ## The tokens of a statement -/

/-- The tokens of a metric in a select list, with those that the name of the function is read as. -/
def metricKinds (name : List Char) (metric : Metric) : List TokenKind :=
  ((scan name).tokens.map Token.kind ++ [.openParen, (nameSpelling metric.value).kind]) ++
    [.closeParen, .keyword .AS, (nameSpelling metric.value).kind]

/-- The tokens of the items of a select list. -/
def itemKinds (selection : Selection) : List (List TokenKind) :=
  [(nameSpelling "id").kind] ::
    selection.dimensions.map (fun dimension => [(nameSpelling dimension.value).kind]) ++
    selection.metrics.map (metricKinds (functionName selection.function))

/-- A name in quotes is read apart. -/
theorem readsApart_quotedName (name : String) :
    ReadsApart (quotedName name) [(nameSpelling name).kind] :=
  .single (isWritable_nameSpelling name)

/-- A metric is read apart if the name of the function stands apart. -/
theorem readsApart_metricItem {function : AggregateFunction}
    (apart : StandsApart (functionName function)) (metric : Metric) :
    ReadsApart (metricItem function metric) (metricKinds (functionName function) metric) := by
  have call := apart.readsApart (isWritable_nameSpelling metric.value)
  have paren : ReadsApart [')'] [.closeParen] := .single ⟨by decide, _, _, rfl, rfl⟩
  have as' : ReadsApart " AS".toList [.keyword .AS] :=
    (ReadsApart.single (isWritable_keyword .AS)).blank (by simp)
  have column := (readsApart_quotedName metric.value).blank (by simp)
  have trailing := as'.append column (startsBehind_cons (by decide) _)
  have behind := paren.append trailing (startsBehind_cons (by decide) _)
  have whole := call.append behind (startsBehind_cons (by decide) _)
  have text : metricItem function metric =
      (functionName function ++ '(' :: quotedName metric.value) ++
        ([')'] ++ (" AS".toList ++ ' ' :: quotedName metric.value)) := by
    simp [metricItem]
  rw [text]
  exact whole

/-- Texts that are joined by commas are read as their tokens with commas between them. -/
theorem readsApart_joined {α : Type} {textOf : α → List Char} {kindsOf : α → List TokenKind}
    {items : List α} (reads : ∀ item ∈ items, ReadsApart (' ' :: textOf item) (kindsOf item))
    (some : items ≠ []) :
    ReadsApart (' ' :: joined ", ".toList (items.map textOf))
      (separated .comma (items.map kindsOf)) := by
  induction items with
  | nil => exact absurd rfl some
  | cons first later inductionHypothesis =>
    obtain ⟨here, laterReads⟩ := List.forall_mem_cons.mp reads
    cases later with
    | nil => exact here
    | cons second more =>
      have behind := inductionHypothesis laterReads (by simp)
      have comma : ReadsApart [','] [.comma] := .single isWritable_comma
      have tail := comma.append behind (startsBehind_cons (by decide) _)
      have whole := here.append tail (startsBehind_cons (by decide) _)
      simpa [joined, separated] using whole

/-- The items of a select list with their tokens, where the name of the function stands apart. -/
theorem readsApart_selectItems {selection : Selection}
    (apart : selection.metrics ≠ [] → StandsApart (functionName selection.function)) :
    ReadsApart (' ' :: joined ", ".toList (selectItems selection))
      (separated .comma (itemKinds selection)) := by
  -- Each item with its tokens and its text.
  let items : List (List TokenKind × List Char) :=
    ([(nameSpelling "id").kind], quotedName "id") ::
      selection.dimensions.map (fun dimension =>
        ([(nameSpelling dimension.value).kind], quotedName dimension.value)) ++
      selection.metrics.map (fun metric =>
        (metricKinds (functionName selection.function) metric,
          metricItem selection.function metric))
  have kinds : items.map Prod.fst = itemKinds selection := by
    simp [items, itemKinds, Function.comp_def]
  have texts : items.map Prod.snd = selectItems selection := by
    simp [items, selectItems, Function.comp_def]
  have reads : ∀ item ∈ items, ReadsApart (' ' :: item.2) item.1 := by
    intro item member
    simp only [items, List.cons_append, List.mem_cons, List.mem_append, List.mem_map] at member
    rcases member with rfl | ⟨dimension, _, rfl⟩ | ⟨metric, listed, rfl⟩
    · exact (readsApart_quotedName "id").blank (by simp)
    · exact (readsApart_quotedName dimension.value).blank (by simp)
    · have name := apart (List.ne_nil_of_mem listed)
      exact (readsApart_metricItem name metric).blank (by simp [metricKinds])
  rw [← kinds, ← texts]
  exact readsApart_joined reads (by simp [items])

/-- The tokens of a statement are those of the select list, and then those of the sentence of
the selection after its select list. -/
theorem kinds_statement {selection : Selection} (some : selection.isBare = false)
    (apart : selection.metrics ≠ [] → StandsApart (functionName selection.function)) :
    (scan selection.statement.toList).tokens.map Token.kind =
      (.keyword .SELECT :: separated .comma (itemKinds selection)) ++
        selection.sentence.tableKinds := by
  have select : ReadsApart "SELECT".toList [.keyword .SELECT] :=
    .single (isWritable_keyword .SELECT)
  have list := select.append (readsApart_selectItems apart) (startsBehind_cons (by decide) _)
  obtain ⟨front, frontKinds, frontSource, frontInPlace⟩ := list
  let back := spelled false selection.sentence.tableKinds
  have backInPlace : InPlace back [] := inPlace_spelled (isWritable_tableKinds selection) false
  have starts : StartsBehind (sourceOf back ++ []) := by
    rw [List.append_nil]
    exact startsBehind_rendered _
  have inPlace : InPlace (front ++ back) [] := (frontInPlace _ starts).concat backInPlace
  have source : sourceOf (front ++ back) = oneLine selection := by
    have table : sourceOf back = _ := rendered_tableKinds selection
    rw [sourceOf, List.flatMap_append]
    change sourceOf front ++ sourceOf back = _
    rw [frontSource, table, oneLine]
    simp only [List.append_assoc]
    rfl
  have scanned := scanFrom_sourceOf inPlace rfl 0
  rw [List.append_nil, source] at scanned
  rw [Selection.statement, some, if_neg Bool.false_ne_true, String.toList_ofList, kinds_layout, scan,
    scanned, kinds_placed, List.map_append, frontKinds, kinds_spelled]
  rfl

/-! ## What a statement is read as -/

/-- Where the name of the function stands apart, a statement is read as what the tokens of
its select list say, and then the table, the filters and the grouping. -/
theorem ofText_statement_of_apart {selection : Selection} (some : selection.isBare = false)
    (plain : ∀ filter ∈ selection.filters, '\x1a' ∉ filter.value.toList)
    (apart : selection.metrics ≠ [] → StandsApart (functionName selection.function)) :
    ∃ list : List Token,
      list.map Token.kind = .keyword .SELECT :: separated .comma (itemKinds selection) ∧
      Query.ofText selection.statement = (Query.ofTokens list).merge {
        table := selection.table
        conditions := selection.filters
        grouping := selection.dimensions.map Dimension.value } := by
  obtain ⟨front, back, tokens, frontKinds, backKinds⟩ :=
    List.map_eq_append_iff.mp (kinds_statement some apart)
  obtain ⟨opening, later, rfl, kind, _⟩ := List.map_eq_cons_iff.mp backKinds
  have opens : opening.opensClause = true := by
    rw [Token.opensClause, kind]
    rfl
  refine ⟨front, frontKinds, ?_⟩
  rw [Query.ofText, tokens, ofTokens_append opens, (Sentence.ofTokens_table backKinds).2,
    Selection.conditions_sentence plain, Selection.grouping_sentence]
  simp [Selection.sentence]

/-- No token of a select list opens another clause, if none of the name of the function does. -/
theorem selecting_items {selection : Selection}
    (selecting : selection.metrics ≠ [] →
      ∀ token ∈ (scan (functionName selection.function)).tokens, token.kind.opensOther = false) :
    ∀ kind ∈ separated .comma (itemKinds selection), kind.opensOther = false := by
  intro kind member
  rcases mem_separated member with rfl | ⟨item, listed, inside⟩
  · rfl
  · simp only [itemKinds, List.cons_append, List.mem_cons, List.mem_append, List.mem_map] at listed
    rcases listed with rfl | ⟨dimension, _, rfl⟩ | ⟨metric, present, rfl⟩
    · rw [List.mem_singleton.mp inside]
      rfl
    · rw [List.mem_singleton.mp inside]
      rfl
    · simp only [metricKinds, List.mem_append, List.mem_map, List.mem_cons, List.not_mem_nil,
        or_false] at inside
      rcases inside with (⟨token, named, rfl⟩ | rfl | rfl) | rfl | rfl | rfl
      · exact selecting (List.ne_nil_of_mem present) token named
      all_goals rfl

/-- The name of a function, read from any text, disturbs no other clause if it leaves open
neither a quoted token nor a comment and no token of it is the keyword of another clause:
the statement is read with the table, the filters and the grouping of the selection. Without
metrics the name is not written, and the text does not matter. -/
theorem clauses_undisturbed (text table : String) (metrics : List Metric)
    (dimensions : List Dimension) (filters : List Condition)
    (some : metrics ≠ [] ∨ dimensions ≠ [])
    (plain : ∀ filter ∈ filters, '\x1a' ∉ filter.value.toList)
    (apart : metrics ≠ [] → StandsApart (functionName (.ofName text)))
    (selecting : metrics ≠ [] →
      ∀ token ∈ (scan (functionName (.ofName text))).tokens, token.kind.opensOther = false) :
    let query := Query.ofText (Selection.statement ⟨table, .ofName text, metrics, dimensions, filters⟩)
    query.table = table ∧ query.conditions = filters ∧
      query.grouping = dimensions.map Dimension.value := by
  intro query
  have notBare : Selection.isBare ⟨table, .ofName text, metrics, dimensions, filters⟩ = false := by
    rcases some with some | some
    · simp [Selection.isBare, some]
    · simp [Selection.isBare, some]
  obtain ⟨list, kinds, same⟩ := ofText_statement_of_apart notBare plain apart
  have select : (Query.ofTokens list).IsSelectList := by
    refine isSelectList_ofTokens fun token member => ?_
    have listed : token.kind ∈ list.map Token.kind := List.mem_map_of_mem member
    rw [kinds] at listed
    rcases List.mem_cons.mp listed with keyword | inside
    · rw [keyword]
      rfl
    · exact selecting_items selecting token.kind inside
  rw [show query = _ from same]
  simp [Query.merge, select.table, select.conditions, select.grouping]

/-- Keywords in quotes and comments, keywords of a select list, and parentheses in the name of
a function do not matter. -/
theorem clauses_undisturbed_awkward :
    let text := "half) 'from t' -- where a = 1\n select, \"group by\" and (as"
    let query := Query.ofText (Selection.statement {
      table := "sales", function := .ofName text
      metrics := [⟨"revenue", "", .number⟩, ⟨"units", "", .number⟩]
      dimensions := [⟨"region", "", none⟩], filters := [⟨"region", .like, "%from%"⟩] })
    query.table = "sales" ∧ query.conditions = [⟨"region", .like, "%from%"⟩] ∧
      query.grouping = ["region"] := by
  intro text
  have comments : (scan (functionName (.ofName text))).tail = [] := by decide +kernel
  have apart : StandsApart (functionName (.ofName text)) :=
    ⟨by decide +kernel, comments ▸ .nil⟩
  exact clauses_undisturbed text "sales" _ _ _ (.inl (by simp)) (by decide) (fun _ => apart)
    (fun _ => by decide +kernel)

/-- A name that goes on with the keyword of another clause redirects the query to another
table or adds a condition, and one that opens a comment drops the table and the filters. -/
theorem clauses_disturbed :
    let read (text : String) := Query.ofText (Selection.statement {
      table := "sales", function := .ofName text, metrics := [⟨"revenue", "", .number⟩]
      filters := [⟨"region", .equal, "North"⟩] })
    (read "from customers, sum").table = "CUSTOMERS" ∧
      (read "where a = b and sum").conditions = [⟨"A", .equal, "B"⟩, ⟨"region", .equal, "North"⟩] ∧
      (read "sum --").table = "" ∧ (read "sum --").conditions = [] := by
  decide +kernel

end MetricQuery
