import MetricQuery.Proofs.Selection.Spelling

/-!
# Selections as sentences

The statement of a selection is a sentence of the query language, written with
one blank between its tokens. A row of kinds that is written with some text can
be put between others, so the parts of a statement are written one by one: the
items of the select list, the conditions, and the grouping.

The main statements are that the statement on one line is the sentence of the
selection, written, and that every token of this sentence is read back.
-/

namespace MetricQuery

open Statement

/-- Whether a row of kinds is written with a text, behind a blank. -/
def Writes (kinds : List TokenKind) (text : List Char) : Prop :=
  ∀ rest, rendered false (kinds ++ rest) = ' ' :: (text ++ rendered false rest)

/-- A separator as it is written between two rows. -/
def TokenKind.mark (separator : TokenKind) : List Char :=
  (if separator.hugsLeft then [] else [' ']) ++ (separator.written ++ [' '])

/-- Joined rows are written with the joined texts. -/
theorem Writes.separated {α : Type} {separator : TokenKind} (noParen : separator ≠ .openParen)
    {kindsOf : α → List TokenKind} {textOf : α → List Char} {spellings : List α}
    (writes : ∀ spelling ∈ spellings, Writes (kindsOf spelling) (textOf spelling))
    (some : spellings ≠ []) :
    Writes (MetricQuery.separated separator (spellings.map kindsOf))
      (joined separator.mark (spellings.map textOf)) := by
  induction spellings with
  | nil => exact absurd rfl some
  | cons first later inductionHypothesis =>
    cases later with
    | nil => exact writes first List.mem_cons_self
    | cons second more =>
      obtain ⟨here, laterWrites⟩ := List.forall_mem_cons.mp writes
      have behind := inductionHypothesis laterWrites (by simp)
      intro rest
      calc rendered false
            (MetricQuery.separated separator ((first :: second :: more).map kindsOf) ++ rest)
          = rendered false (kindsOf first ++ separator ::
              (MetricQuery.separated separator ((second :: more).map kindsOf) ++ rest)) := by
            simp [MetricQuery.separated]
        _ = ' ' :: (textOf first ++ (separator.mark ++
              (joined separator.mark ((second :: more).map textOf) ++ rendered false rest))) := by
            have open' : decide (separator = .openParen) = false := decide_eq_false noParen
            rw [here, rendered_cons, open', behind]
            simp [TokenKind.mark]
        _ = ' ' :: (joined separator.mark ((first :: second :: more).map textOf) ++
              rendered false rest) := by
            simp [joined]

/-- One token is written with its text, unless it hugs what is before it or opens a parenthesis. -/
theorem Writes.single {kind : TokenKind} (apart : kind.hugsLeft = false)
    (noParen : kind ≠ .openParen) : Writes [kind] kind.written := by
  intro rest
  rw [List.singleton_append, rendered_cons]
  simp [apart, noParen]

/-- Two rows one after the other are written with a blank between their texts. -/
theorem Writes.append {first second : List TokenKind} {firstText secondText : List Char}
    (here : Writes first firstText) (behind : Writes second secondText) :
    Writes (first ++ second) (firstText ++ ' ' :: secondText) := by
  intro rest
  rw [List.append_assoc, here, behind]
  simp

namespace Statement

/-- A name is written with its quotes. -/
theorem writes_nameSpelling (name : String) :
    Writes [(nameSpelling name).kind] (quotedName name) :=
  Writes.single rfl nofun

/-- A metric as an item of a select list. -/
def metricSpelling (function : AggregateFunction) (metric : Metric) : ItemSpelling :=
  .call (functionName function) (.plain (nameSpelling metric.value))
    (some (nameSpelling metric.value))

/-- A metric is written as its aggregation. -/
theorem writes_metricSpelling (function : AggregateFunction) (metric : Metric) :
    Writes (metricSpelling function metric).kinds (metricItem function metric) := by
  intro rest
  simp [metricSpelling, ItemSpelling.kinds, FieldSpelling.kinds, ItemSpelling.columnKinds,
    nameSpelling, NameSpelling.kind, rendered_cons, TokenKind.hugsLeft, TokenKind.written,
    Keyword.word, metricItem, quotedName]

/-- A filter as a condition. -/
def filterSpelling (filter : Condition) : ConditionSpelling :=
  ⟨nameSpelling filter.field, filter.comparison, valueSpelling filter.value⟩

/-- The sign of a comparison is the text of its token. -/
theorem written_comparison (comparison : Comparison) :
    comparison.kind.written = comparison.symbol.toList := by
  cases comparison <;> decide

/-- A filter is written as its condition. -/
theorem writes_filterSpelling (filter : Condition) :
    Writes (filterSpelling filter).kinds (filterItem filter) := by
  have sign : Writes [filter.comparison.kind] filter.comparison.symbol.toList := by
    rw [← written_comparison]
    cases filter.comparison <;> exact Writes.single rfl (by simp [Comparison.kind])
  have value : Writes [(valueSpelling filter.value).kind] (literal filter.value) := by
    rw [← written_valueSpelling, kind_valueSpelling, literalKind]
    split
    · exact Writes.single rfl (by simp)
    · exact Writes.single rfl (by simp)
  have whole := (writes_nameSpelling filter.field).append (sign.append value)
  simpa [filterItem, filterSpelling, ConditionSpelling.kinds] using whole

/-- A field of a grouping or of a select list. -/
def dimensionSpelling (dimension : Dimension) : FieldSpelling :=
  .plain (nameSpelling dimension.value)

/-- A list behind its keywords is written as such, also if it has no items. -/
theorem rendered_listKinds {α : Type} {keywords : List TokenKind} {separator : TokenKind}
    {opening : List Char} {kindsOf : α → List TokenKind} {textOf : α → List Char}
    {spellings : List α} (before : Writes keywords opening) (noParen : separator ≠ .openParen)
    (writes : ∀ spelling ∈ spellings, Writes (kindsOf spelling) (textOf spelling))
    (rest : List TokenKind) :
    rendered false (listKinds keywords separator (spellings.map kindsOf) ++ rest) =
      listPart (' ' :: (opening ++ [' '])) separator.mark (spellings.map textOf) ++
        rendered false rest := by
  cases spellings with
  | nil => rfl
  | cons first later =>
    have whole := before.append (Writes.separated noParen writes (by simp)) rest
    simpa [listKinds, listPart] using whole

end Statement

/-- A selection as a sentence. -/
def Selection.sentence (selection : Selection) : Sentence where
  items :=
    .field (.plain (nameSpelling "id")) ::
      selection.dimensions.map (fun dimension => .field (dimensionSpelling dimension)) ++
      selection.metrics.map (metricSpelling selection.function)
  table := nameSpelling selection.table
  conditions := selection.filters.map filterSpelling
  grouping := selection.dimensions.map dimensionSpelling

namespace Statement

/-- The select list of a selection is written as its items. -/
theorem writes_selectItems (selection : Selection) :
    Writes (separated .comma (selection.sentence.items.map ItemSpelling.kinds))
      (joined ", ".toList (selectItems selection)) := by
  -- The items of the sentence, each with the text of its own kind of item.
  let items : List (ItemSpelling × List Char) :=
    (.field (.plain (nameSpelling "id")), quotedName "id") ::
      selection.dimensions.map
        (fun dimension => (.field (dimensionSpelling dimension), quotedName dimension.value)) ++
      selection.metrics.map
        (fun metric =>
          (metricSpelling selection.function metric, metricItem selection.function metric))
  have spellings : items.map (fun item => item.1.kinds) =
      selection.sentence.items.map ItemSpelling.kinds := by
    simp [items, Selection.sentence, Function.comp_def]
  have texts : items.map (fun item => item.2) = selectItems selection := by
    simp [items, selectItems, Function.comp_def]
  have writes : ∀ item ∈ items, Writes item.1.kinds item.2 := by
    intro item member
    simp only [items, List.cons_append, List.mem_cons, List.mem_append, List.mem_map] at member
    rcases member with rfl | ⟨dimension, _, rfl⟩ | ⟨metric, _, rfl⟩
    · exact writes_nameSpelling "id"
    · exact writes_nameSpelling dimension.value
    · exact writes_metricSpelling selection.function metric
  have comma : TokenKind.comma ≠ .openParen := nofun
  rw [← spellings, ← texts]
  exact Writes.separated comma writes (by simp [items])

/-- The conditions of a selection are written as its filters. -/
theorem rendered_conditions (selection : Selection) (rest : List TokenKind) :
    rendered false (listKinds [.keyword .WHERE] (.keyword .AND)
        (selection.sentence.conditions.map ConditionSpelling.kinds) ++ rest) =
      listPart " WHERE ".toList " AND ".toList (selection.filters.map filterItem) ++
        rendered false rest := by
  have opening : Writes [.keyword .WHERE] "WHERE".toList := Writes.single rfl nofun
  have conjunction : TokenKind.keyword .AND ≠ .openParen := nofun
  rw [Selection.sentence, List.map_map]
  exact rendered_listKinds opening conjunction (fun filter _ => writes_filterSpelling filter) rest

/-- The grouping of a selection is written as its dimensions. -/
theorem rendered_grouping (selection : Selection) :
    rendered false (listKinds [.keyword .GROUP, .keyword .BY] .comma
        (selection.sentence.grouping.map FieldSpelling.kinds)) =
      listPart " GROUP BY ".toList ", ".toList
        (selection.dimensions.map fun dimension => quotedName dimension.value) := by
  have group : Writes [.keyword .GROUP] "GROUP".toList := Writes.single rfl nofun
  have by' : Writes [.keyword .BY] "BY".toList := Writes.single rfl nofun
  have comma : TokenKind.comma ≠ .openParen := nofun
  have whole := rendered_listKinds (group.append by') comma
    (fun dimension (_ : dimension ∈ selection.dimensions) => writes_nameSpelling dimension.value) []
  have nothing : rendered false [] = [] := rfl
  rw [List.append_nil, nothing, List.append_nil] at whole
  rw [Selection.sentence, List.map_map]
  exact whole

/-- The sentence of a selection after its select list is written as the table, the filters
and the dimensions. -/
theorem rendered_tableKinds (selection : Selection) :
    rendered false selection.sentence.tableKinds =
      " FROM ".toList ++ quotedName selection.table ++
        listPart " WHERE ".toList " AND ".toList (selection.filters.map filterItem) ++
        listPart " GROUP BY ".toList ", ".toList
          (selection.dimensions.map fun dimension => quotedName dimension.value) := by
  have opening : Writes [.keyword .FROM] "FROM".toList := Writes.single rfl nofun
  have table : Writes [.keyword .FROM, (nameSpelling selection.table).kind] _ :=
    opening.append (writes_nameSpelling selection.table)
  have sentence : rendered false selection.sentence.tableKinds =
      rendered false ([.keyword .FROM, (nameSpelling selection.table).kind] ++
        (listKinds [.keyword .WHERE] (.keyword .AND)
            (selection.sentence.conditions.map ConditionSpelling.kinds) ++
          listKinds [.keyword .GROUP, .keyword .BY] .comma
            (selection.sentence.grouping.map FieldSpelling.kinds))) := rfl
  rw [sentence, table, rendered_conditions, rendered_grouping]
  simp only [List.append_assoc]
  rfl

/-- The statement of a selection on one line is its sentence, written. -/
theorem oneLine_eq_rendered (selection : Selection) :
    oneLine selection = rendered true selection.sentence.kinds := by
  have select := writes_selectItems selection
  have sentence : rendered true selection.sentence.kinds =
      "SELECT".toList ++ rendered false
        (separated .comma (selection.sentence.items.map ItemSpelling.kinds) ++
          selection.sentence.tableKinds) := rfl
  rw [sentence, select, rendered_tableKinds, oneLine]
  simp only [List.append_assoc]
  rfl

/-- The kinds of joined items are read back if those of the items and the
separator are. -/
theorem isWritable_separated {separator : TokenKind} {lists : List (List TokenKind)}
    (mark : separator.IsWritable) (items : ∀ list ∈ lists, ∀ kind ∈ list, kind.IsWritable) :
    ∀ kind ∈ separated separator lists, kind.IsWritable := by
  intro kind member
  rcases mem_separated member with rfl | ⟨list, listed, inside⟩
  · exact mark
  · exact items list listed kind inside

/-- The same with keywords before the items. -/
theorem isWritable_listKinds {keywords : List TokenKind} {separator : TokenKind}
    {lists : List (List TokenKind)} (before : ∀ kind ∈ keywords, kind.IsWritable)
    (mark : separator.IsWritable) (items : ∀ list ∈ lists, ∀ kind ∈ list, kind.IsWritable) :
    ∀ kind ∈ listKinds keywords separator lists, kind.IsWritable := by
  intro kind member
  unfold listKinds at member
  split at member
  · simp at member
  · rcases List.mem_append.mp member with inside | inside
    · exact before kind inside
    · exact isWritable_separated mark items kind inside

/-- A comma is read back. -/
theorem isWritable_comma : TokenKind.comma.IsWritable := ⟨by decide, _, _, rfl, rfl⟩

/-- The items of the select list are read back if the function is. -/
theorem isWritable_item {selection : Selection} (readable : selection.function.IsReadable)
    {item : ItemSpelling} (listed : item ∈ selection.sentence.items) :
    ∀ kind ∈ item.kinds, kind.IsWritable := by
  simp only [Selection.sentence, List.cons_append, List.mem_cons, List.mem_append,
    List.mem_map] at listed
  rcases listed with rfl | ⟨dimension, _, rfl⟩ | ⟨metric, _, rfl⟩
  · rintro kind (_ | ⟨_, ⟨⟩⟩)
    exact isWritable_nameSpelling "id"
  · rintro kind (_ | ⟨_, ⟨⟩⟩)
    exact isWritable_nameSpelling dimension.value
  · intro kind member
    simp only [metricSpelling, ItemSpelling.kinds, FieldSpelling.kinds, ItemSpelling.columnKinds,
      List.mem_cons, List.mem_append, List.not_mem_nil, or_false] at member
    rcases member with rfl | rfl | rfl | rfl | rfl | rfl
    · exact readable.isWritable
    · exact readsAs_openParen _
    · exact isWritable_nameSpelling metric.value
    · exact ⟨by decide, _, _, rfl, rfl⟩
    · exact isWritable_keyword .AS
    · exact isWritable_nameSpelling metric.value

/-- A comparison is read back. -/
theorem isWritable_comparison (comparison : Comparison) : comparison.kind.IsWritable := by
  cases comparison with
  | like => exact isWritable_keyword .LIKE
  | _ => exact ⟨by decide, _, _, rfl, rfl⟩

/-- The conditions are read back. -/
theorem isWritable_condition (filter : Condition) :
    ∀ kind ∈ (filterSpelling filter).kinds, kind.IsWritable := by
  intro kind member
  simp only [filterSpelling, ConditionSpelling.kinds, List.mem_cons, List.not_mem_nil,
    or_false] at member
  rcases member with rfl | rfl | rfl
  · exact isWritable_nameSpelling filter.field
  · exact isWritable_comparison filter.comparison
  · exact isWritable_valueSpelling filter.value

/-- Every token of the sentence of a selection after the select list is read back. -/
theorem isWritable_tableKinds (selection : Selection) :
    ∀ kind ∈ selection.sentence.tableKinds, kind.IsWritable := by
  have conditions : ∀ list ∈ selection.sentence.conditions.map ConditionSpelling.kinds,
      ∀ kind ∈ list, kind.IsWritable := by
    intro list member
    obtain ⟨_, listed, rfl⟩ := List.mem_map.mp member
    obtain ⟨filter, _, rfl⟩ := List.mem_map.mp listed
    exact isWritable_condition filter
  have grouping : ∀ list ∈ selection.sentence.grouping.map FieldSpelling.kinds,
      ∀ kind ∈ list, kind.IsWritable := by
    intro list member
    obtain ⟨_, listed, rfl⟩ := List.mem_map.mp member
    obtain ⟨dimension, _, rfl⟩ := List.mem_map.mp listed
    rintro kind (_ | ⟨_, ⟨⟩⟩)
    exact isWritable_nameSpelling dimension.value
  intro kind member
  simp only [Sentence.tableKinds, List.mem_cons, List.mem_append] at member
  rcases member with rfl | rfl | inside | inside
  · exact isWritable_keyword .FROM
  · exact isWritable_nameSpelling selection.table
  · refine isWritable_listKinds ?_ (isWritable_keyword .AND) conditions kind inside
    rintro kind (_ | ⟨_, ⟨⟩⟩)
    exact isWritable_keyword .WHERE
  · refine isWritable_listKinds ?_ isWritable_comma grouping kind inside
    rintro kind (_ | ⟨_, _ | ⟨_, ⟨⟩⟩⟩)
    · exact isWritable_keyword .GROUP
    · exact isWritable_keyword .BY

/-- Every token of the sentence of a selection is read back if its function is. -/
theorem isWritable_sentence {selection : Selection} (readable : selection.function.IsReadable) :
    ∀ kind ∈ selection.sentence.kinds, kind.IsWritable := by
  have items : ∀ list ∈ selection.sentence.items.map ItemSpelling.kinds,
      ∀ kind ∈ list, kind.IsWritable := by
    intro list member
    obtain ⟨item, listed, rfl⟩ := List.mem_map.mp member
    exact isWritable_item readable listed
  intro kind member
  simp only [Sentence.kinds, List.mem_cons, List.mem_append] at member
  rcases member with rfl | inside | behind
  · exact isWritable_keyword .SELECT
  · exact isWritable_separated isWritable_comma items kind inside
  · exact isWritable_tableKinds selection kind behind

end Statement

end MetricQuery
