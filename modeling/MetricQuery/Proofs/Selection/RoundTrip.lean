import MetricQuery.Proofs.Selection.Sentence
import MetricQuery.Proofs.Token.Layout

/-!
# Statements are read back

A statement is the sentence of its selection, written and then laid out. Every
name and value in it is read back as one token, so no character of a name or a
value can be taken for a part of the sentence, and the layout changes no token.

The main statement is that the query which a statement writes is the selection
itself, part by part.
-/

namespace MetricQuery

open Statement

/-- Queries that ask for one field each ask for these fields. -/
theorem mergeAll_fields (fields : List String) :
    mergeAll (fields.map fun field => { fields := [field] }) = { fields := fields } := by
  induction fields with
  | nil => rfl
  | cons field fields inductionHypothesis =>
    exact congrArg (Query.merge { fields := [field] }) inductionHypothesis

/-- Queries that ask for one aggregation each ask for these aggregations. -/
theorem mergeAll_aggregations (aggregations : List Aggregation) :
    mergeAll (aggregations.map fun aggregation => { aggregations := [aggregation] }) =
      { aggregations := aggregations } := by
  induction aggregations with
  | nil => rfl
  | cons aggregation aggregations inductionHypothesis =>
    exact congrArg (Query.merge { aggregations := [aggregation] }) inductionHypothesis

namespace Selection

/-- The query that stands for a selection. -/
def query (selection : Selection) : Query where
  fields := "id" :: selection.dimensions.map Dimension.value
  aggregations := selection.metrics.map fun metric =>
    ⟨selection.function, metric.value, metric.value⟩
  table := selection.table
  conditions := selection.filters
  grouping := selection.dimensions.map Dimension.value

/-- The select list of the sentence asks for the fields and aggregations of the query. -/
theorem mergeAll_items {selection : Selection} (readable : selection.function.IsReadable) :
    mergeAll (selection.sentence.items.map ItemSpelling.query) =
      { fields := selection.query.fields, aggregations := selection.query.aggregations } := by
  have field (name : String) :
      ItemSpelling.query (.field (.plain (nameSpelling name))) = { fields := [name] } := by
    simp [ItemSpelling.query, FieldSpelling.text]
  have call (metric : Metric) : (metricSpelling selection.function metric).query =
      { aggregations := [⟨selection.function, metric.value, metric.value⟩] } := by
    have function : AggregateFunction.ofName (String.ofList (functionName selection.function)) =
        selection.function := by
      rw [functionName, String.ofList_toList, readable.ofName_shown]
    simp [metricSpelling, ItemSpelling.query, FieldSpelling.text, function]
  have items : selection.sentence.items.map ItemSpelling.query =
      selection.query.fields.map (fun name => { fields := [name] }) ++
        selection.query.aggregations.map
          (fun aggregation => { aggregations := [aggregation] }) := by
    simp [sentence, query, dimensionSpelling, field, call, Function.comp_def]
  rw [items, mergeAll_append, mergeAll_fields, mergeAll_aggregations]
  simp [Query.merge]

/-- The conditions of the sentence are the filters, if no value of a filter has a substitute
character. -/
theorem conditions_sentence {selection : Selection}
    (plain : ∀ filter ∈ selection.filters, '\x1a' ∉ filter.value.toList) :
    selection.sentence.conditions.map ConditionSpelling.condition = selection.filters := by
  have same : ∀ filter ∈ selection.filters, (filterSpelling filter).condition = id filter := by
    intro filter member
    simp [filterSpelling, ConditionSpelling.condition, text_valueSpelling (plain filter member)]
  rw [sentence, List.map_map]
  exact (List.map_congr_left same).trans (List.map_id _)

/-- The grouping of the sentence is by the dimensions. -/
theorem grouping_sentence (selection : Selection) :
    selection.sentence.grouping.map (fun field => String.ofList field.text) =
      selection.dimensions.map Dimension.value := by
  simp [sentence, dimensionSpelling, FieldSpelling.text, Function.comp_def]

/-- The sentence of a selection writes the query of the selection, if the function
is read back and no value of a filter has a substitute character. -/
theorem query_sentence {selection : Selection} (readable : selection.function.IsReadable)
    (plain : ∀ filter ∈ selection.filters, '\x1a' ∉ filter.value.toList) :
    selection.sentence.query = selection.query := by
  rw [Sentence.query, mergeAll_items readable, conditions_sentence plain, grouping_sentence]
  simp [sentence, query, Query.merge]

/-- The statement of a selection is read as the query of the selection. -/
theorem ofText_statement_eq {selection : Selection} (some : selection.isBare = false)
    (readable : selection.function.IsReadable)
    (plain : ∀ filter ∈ selection.filters, '\x1a' ∉ filter.value.toList) :
    Query.ofText selection.statement = selection.query := by
  have kinds : (scan selection.statement.toList).tokens.map Token.kind =
      selection.sentence.kinds := by
    rw [statement, some, if_neg Bool.false_ne_true, String.toList_ofList, kinds_layout,
      oneLine_eq_rendered]
    exact kinds_scan_rendered (isWritable_sentence readable) true
  rw [Query.ofText, Sentence.ofTokens_of_kinds kinds, query_sentence readable plain]

/-- A statement starts with the first letter of its first keyword. -/
theorem statement_starts {selection : Selection} (some : selection.isBare = false)
    (readable : selection.function.IsReadable) :
    ∃ later, selection.statement.toList = 'S' :: later := by
  have scanned := scan_rendered (isWritable_sentence readable) true
  rw [statement, some, if_neg Bool.false_ne_true, String.toList_ofList, oneLine_eq_rendered, layout,
    scanned]
  exact ⟨_, rfl⟩

/-- A selection has a statement that is run exactly if it is not bare. -/
theorem isSentinel_statement {selection : Selection} (readable : selection.function.IsReadable) :
    isSentinel selection.statement = selection.isBare := by
  cases bare : selection.isBare with
  | true =>
    rw [statement, bare, if_pos rfl]
    decide +kernel
  | false =>
    obtain ⟨later, starts⟩ := statement_starts bare readable
    have visible : Text.isBlank 'S' = false := by decide
    have same : Text.trimStart ('S' :: later) = 'S' :: later :=
      List.dropWhile_cons_of_neg (by simp [visible])
    rw [isSentinel, starts, same]
    rfl

end Selection

/-- The statement of a selection with a metric or a dimension is read as the query
that selects the identifying field, the dimensions and the function of each
metric, reads the table, keeps the filters as conditions and groups by the
dimensions. No character of a table, a field or a value matters, except that a
value must not have the substitute character. -/
theorem statement_reads_back (selection : Selection)
    (some : selection.metrics ≠ [] ∨ selection.dimensions ≠ [])
    (readable : selection.function.IsReadable)
    (plain : ∀ filter ∈ selection.filters, '\x1a' ∉ filter.value.toList) :
    Query.ofText selection.statement = {
      fields := "id" :: selection.dimensions.map Dimension.value
      aggregations := selection.metrics.map fun metric =>
        ⟨selection.function, metric.value, metric.value⟩
      table := selection.table
      conditions := selection.filters
      grouping := selection.dimensions.map Dimension.value } := by
  have notBare : selection.isBare = false := by
    rcases some with some | some
    · simp [Selection.isBare, some]
    · simp [Selection.isBare, some]
  exact Selection.ofText_statement_eq notBare readable plain

/-- Quotes, keywords, line ends, commas and comment signs in names and values do
not matter, and neither do letters beyond ASCII in the name of a function. -/
theorem statement_reads_back_awkward :
    Query.ofText (Selection.statement {
      table := "my \"table\"\n-- GROUP BY"
      function := .other "größe_2"
      metrics := [⟨"net), SUM(\"gross", "", .number⟩, ⟨"", "", .number⟩]
      dimensions := [⟨"a, b FROM c", "", none⟩]
      filters := [⟨"x = 'y' AND z", .like, "it's \\ '' -- \t\r\x00"⟩, ⟨"", .atMost, ""⟩] }) = {
      fields := ["id", "a, b FROM c"]
      aggregations := [⟨.other "größe_2", "net), SUM(\"gross", "net), SUM(\"gross"⟩,
        ⟨.other "größe_2", "", ""⟩]
      table := "my \"table\"\n-- GROUP BY"
      conditions := [⟨"x = 'y' AND z", .like, "it's \\ '' -- \t\r\x00"⟩, ⟨"", .atMost, ""⟩]
      grouping := ["a, b FROM c"] } := by
  have word : IsFunctionWord "größe_2".toList := by decide +kernel
  exact statement_reads_back _ (.inl (by simp)) ⟨word, by decide⟩ (by decide +kernel)

end MetricQuery
