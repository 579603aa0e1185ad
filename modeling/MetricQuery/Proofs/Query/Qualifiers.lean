import Mathlib.Data.List.Basic
import MetricQuery.Proofs.Query.Clauses
import MetricQuery.Proofs.Query.Grammar

/-!
# Qualified names

A name may stand behind a qualifier and a dot. A dot ends the qualifier as a blank would, so
a qualified name is three tokens in the place of one, with or without gaps beside the dot.
Where a field is read from all tokens of its item, the last of the three counts. This is so
in a select list, in the parentheses of a call and in a grouping.

A condition is read differently. Its field is its first token, and the next one has to be a
comparison. Behind a qualifier this is the dot, so the condition is not understood and is
left out.

The main statement compares two texts of the same query, one of which has qualifiers where
the other has none. They are read as the same query, but for the conditions whose fields are
qualified.
-/

namespace MetricQuery

/-! ## Writing qualifiers -/

/-- A name behind a qualifier and a dot, with or without gaps beside the dot. -/
inductive WritesQualified (field : String) : List Char → Prop where
  | intro {qualifier : String} {first last before behind : List Char}
      (qualifies : WritesName qualifier first) (named : WritesName field last)
      (skipped : Gap false before) (skippedBehind : Gap false behind) :
      WritesQualified field (first ++ (before ++ '.' :: (behind ++ last)))

/-- An item of a select list, whose field may be qualified. -/
inductive WritesQualifiedItem : SelectItem → List (List Char) → Prop where
  | plain {item : SelectItem} {words : List (List Char)} (written : WritesItem item words) :
      WritesQualifiedItem item words
  | field {name : String} {word : List Char} (written : WritesQualified name word) :
      WritesQualifiedItem (.field name) [word]
  | call {function name : String} {word : List Char} (bare : IsBareName function.toList)
      (written : WritesQualified name word) :
      WritesQualifiedItem (.aggregation ⟨.ofName function, name, name⟩)
        [function.toList, ['('], word, [')']]
  | callAs {function name column : String} {word asWord columnWord : List Char}
      (bare : IsBareName function.toList) (written : WritesQualified name word)
      (keyword : WritesKeyword .AS asWord) (renamed : WritesName column columnWord) :
      WritesQualifiedItem (.aggregation ⟨.ofName function, name, column⟩)
        [function.toList, ['('], word, [')'], asWord, columnWord]

/-- A condition, and whether its field is qualified. -/
inductive WritesQualifiedCondition : Condition × Bool → List (List Char) → Prop where
  | plain {condition : Condition} {words : List (List Char)}
      (written : WritesCondition condition words) :
      WritesQualifiedCondition (condition, false) words
  | qualified {field value : String} {comparison : Comparison}
      {fieldWord sign valueWord : List Char} (named : WritesQualified field fieldWord)
      (compared : WritesComparison comparison sign) (written : WritesValue value valueWord) :
      WritesQualifiedCondition (⟨field, comparison, value⟩, true) [fieldWord, sign, valueWord]

/-- Conditions behind their keyword, if there are any. -/
inductive WritesQualifiedConditions : List (Condition × Bool) → List (List Char) → Prop where
  | none : WritesQualifiedConditions [] []
  | some {conditions : List (Condition × Bool)} {whereWord : List Char} {words : List (List Char)}
      (keyword : WritesKeyword .WHERE whereWord)
      (list : WritesList WritesQualifiedCondition (WritesKeyword .AND) conditions words) :
      WritesQualifiedConditions conditions (whereWord :: words)

/-- The fields of a grouping behind its keywords, if there are any, each of which may be
qualified. -/
inductive WritesQualifiedGrouping : List String → List (List Char) → Prop where
  | none : WritesQualifiedGrouping [] []
  | some {fields : List String} {groupWord byWord : List Char} {words : List (List Char)}
      (keyword : WritesKeyword .GROUP groupWord) (second : WritesKeyword .BY byWord)
      (list : WritesList (fun field words =>
        ∃ word, words = [word] ∧ (WritesName field word ∨ WritesQualified field word))
        (· = [',']) fields words) :
      WritesQualifiedGrouping fields (groupWord :: byWord :: words)

/-- A query, in which any field that is a name may be qualified. -/
inductive WritesQualifiedQuery : List SelectItem → String → List (Condition × Bool) →
    List String → List (List Char) → Prop where
  | intro {items : List SelectItem} {table : String} {conditions : List (Condition × Bool)}
      {grouping : List String} {selectWord fromWord tableWord : List Char}
      {itemWords conditionWords groupingWords : List (List Char)}
      (first : WritesKeyword .SELECT selectWord)
      (list : WritesList WritesQualifiedItem (· = [',']) items itemWords)
      (second : WritesKeyword .FROM fromWord) (named : WritesName table tableWord)
      (filtered : WritesQualifiedConditions conditions conditionWords)
      (grouped : WritesQualifiedGrouping grouping groupingWords) :
      WritesQualifiedQuery items table conditions grouping
        (selectWord :: (itemWords ++ fromWord :: tableWord :: (conditionWords ++ groupingWords)))

/-! ## Tokens of qualifiers -/

/-- Words with one blank between each two of them are spaced. -/
theorem spaced_intercalate {words : List (List Char)} (some : words ≠ []) :
    Spaced words ([' '].intercalate words) := by
  induction words with
  | nil => exact absurd rfl some
  | cons word later inductionHypothesis =>
    cases later with
    | nil => simpa using Spaced.single word
    | cons next more =>
      have blank : Gap false [' '] := .blank (by decide) .nil
      have spaced := Spaced.cons word blank nofun (inductionHypothesis (List.cons_ne_nil next more))
      simpa [List.intercalate] using spaced

/-- A name is read as the same token in front of a dot as in front of a blank. -/
theorem readsAs_name_dot {name : String} {word : List Char} (written : WritesName name word) :
    ∃ spelling : NameSpelling, ReadsAlone spelling.kind word ∧
      (∀ later, ReadsAs spelling.kind word ('.' :: later)) ∧
        String.ofList spelling.text = name := by
  cases written with
  | bare bare =>
    refine ⟨.bare name.toList, readsAlone_bareName bare, ?_, String.ofList_toList⟩
    intro later
    have kind := bare.wordKind
    obtain ⟨c, tail, shape, starts, continues⟩ := bare.shape
    rw [NameSpelling.kind, ← kind, shape]
    refine readsAs_word_before starts continues ?_
    rintro d ⟨⟩
    decide
  | quoted =>
    refine ⟨.quoted (double '"' name.toList), ⟨?_, by simp [inQuotes]⟩, ?_, ?_⟩
    · exact readsAs_doubleQuoted name.toList (by simp)
    · exact fun later => readsAs_doubleQuoted name.toList (by simp)
    · rw [NameSpelling.text, undouble_double, String.ofList_toList]

/-- A dot is read as one before any text. -/
theorem readsAs_dot (rest : List Char) : ReadsAs .dot ['.'] rest := by
  have visible : Text.isBlank '.' = false := by decide
  exact ⟨by simp [startsVisible_cons_iff, visible], '.', [], rfl, rfl⟩

/-- A qualified name is read as the tokens of its qualifier, the dot and the name. -/
theorem readsTogether_qualified {field : String} {word : List Char}
    (written : WritesQualified field word) :
    ∃ qualifier name : NameSpelling,
      ReadsTogether (FieldSpelling.qualified qualifier name).kinds word ∧
        String.ofList name.text = field := by
  obtain ⟨qualifies, named, skipped, skippedBehind⟩ := written
  rename_i first last before behind
  obtain ⟨qualifier, firstAlone, firstDot, _⟩ := readsAs_name_dot qualifies
  obtain ⟨name, lastAlone, same⟩ := readsAlone_name named
  refine ⟨qualifier, name, ?_, same⟩
  intro front rest skippedFront ends
  refine ⟨[⟨qualifier.kind, front, first, 0⟩, ⟨.dot, before, ['.'], 0⟩,
    ⟨name.kind, behind, last, 0⟩], rfl, by simp [sourceOf], skippedFront, ?_, skipped,
    readsAs_dot _, skippedBehind, lastAlone.before ends, trivial⟩
  -- Without a gap the dot itself ends the qualifier.
  cases shape : before with
  | nil => exact firstDot _
  | cons c later =>
    have blank := skipped.endsToken (by simp [shape]) ('.' :: (behind ++ last ++ rest))
    rw [shape] at blank
    have read := firstAlone.before blank
    simpa [sourceOf] using read

/-- A qualified name is read as a field. -/
theorem readsEach_qualified {field : String} {word : List Char}
    (written : WritesQualified field word) :
    ∃ spelling : FieldSpelling, ReadsEach spelling.kinds [word] ∧
      String.ofList spelling.text = field := by
  obtain ⟨qualifier, name, together, same⟩ := readsTogether_qualified written
  exact ⟨.qualified qualifier name, .together together .nil, same⟩

/-- An item whose field may be qualified is read as its tokens. -/
theorem readsEach_qualifiedItem {item : SelectItem} {words : List (List Char)}
    (written : WritesQualifiedItem item words) :
    ∃ spelling : ItemSpelling, ReadsEach spelling.kinds words ∧ spelling.query = item.query := by
  cases written with
  | plain written => exact readsEach_item written
  | field written =>
    obtain ⟨spelling, each, rfl⟩ := readsEach_qualified written
    exact ⟨.field spelling, each, rfl⟩
  | call bare written =>
    obtain ⟨spelling, each, rfl⟩ := readsEach_qualified written
    exact ⟨.call _ spelling none, each.call bare .nil, by simp [ItemSpelling.query, SelectItem.query]⟩
  | callAs bare written keyword renamed =>
    obtain ⟨spelling, each, rfl⟩ := readsEach_qualified written
    obtain ⟨column, behind, rfl⟩ := readsEach_column keyword renamed
    exact ⟨.call _ spelling (some column), each.call bare behind,
      by simp [ItemSpelling.query, SelectItem.query]⟩

/-- A condition as it is spelled, perhaps with a qualifier of its field. -/
structure QualifiedCondition where
  /-- The qualifier. -/
  qualifier : Option NameSpelling
  /-- The condition without the qualifier. -/
  condition : ConditionSpelling

namespace QualifiedCondition

/-- The tokens of a condition. -/
def kinds (spelling : QualifiedCondition) : List TokenKind :=
  match spelling.qualifier with
  | some qualifier => qualifier.kind :: .dot :: spelling.condition.kinds
  | none => spelling.condition.kinds

/-- The condition that is understood. -/
def understood? (spelling : QualifiedCondition) : Option Condition :=
  if spelling.qualifier.isSome then none else some spelling.condition.condition

/-- A condition is an item. -/
theorem isItem (spelling : QualifiedCondition) : IsItem isAnd spelling.kinds := by
  obtain ⟨qualifier, condition⟩ := spelling
  cases qualifier with
  | none => exact condition.isItem
  | some qualifier =>
    have own := condition.isItem
    have flat : ∀ kind ∈ [qualifier.kind, .dot], IsFlat isAnd kind := by
      refine List.forall_mem_cons.mpr ⟨qualifier.isFlat.2, List.forall_mem_singleton.mpr ?_⟩
      exact ⟨rfl, rfl, nofun, fun _ => rfl⟩
    refine ⟨by simp [kinds], ?_, ?_⟩
    · intro kind member
      rcases List.mem_append.mp (show kind ∈ [qualifier.kind, .dot] ++ condition.kinds from member)
        with front | behind
      · exact (flat kind front).inside
      · exact own.inside kind behind
    · exact (isClosed_append_of_flat flat 0 condition.kinds).trans own.closed

/-- The tokens of a condition are read as the condition, unless its field is qualified: then
a dot stands in the place of the comparison. -/
theorem readCondition_of_kinds {tokens : List Token} {spelling : QualifiedCondition}
    (same : tokens.map Token.kind = spelling.kinds) :
    (readCondition tokens).toOption = spelling.understood? := by
  obtain ⟨qualifier, condition⟩ := spelling
  cases qualifier with
  | none => exact congrArg Except.toOption (ConditionSpelling.readCondition_of_kinds same)
  | some qualifier =>
    simp only [kinds, List.map_eq_cons_iff] at same
    obtain ⟨first, _, rfl, firstKind, dot, later, rfl, dotKind, _⟩ := same
    simp [readCondition, NameSpelling.name?_of_kind firstKind, dotKind, comparisonOf?, understood?,
      Except.toOption]

end QualifiedCondition

/-- A condition whose field may be qualified is read as its tokens. -/
theorem readsEach_qualifiedCondition {marked : Condition × Bool} {words : List (List Char)}
    (written : WritesQualifiedCondition marked words) :
    ∃ spelling : QualifiedCondition, ReadsEach spelling.kinds words ∧
      spelling.understood? = if marked.2 then none else some marked.1 := by
  cases written with
  | plain written =>
    obtain ⟨spelling, each, rfl⟩ := readsEach_condition written
    exact ⟨⟨none, spelling⟩, each, rfl⟩
  | qualified named compared written =>
    rename_i comparison _ _ _
    obtain ⟨qualifier, name, together, rfl⟩ := readsTogether_qualified named
    obtain ⟨value, behind, rfl⟩ := readsEach_compared compared written
    exact ⟨⟨some qualifier, ⟨name, comparison, value⟩⟩, .together together behind, rfl⟩

/-- The conditions that are left when those with a qualified field are dropped. -/
def unqualified (marked : List (Condition × Bool)) : List Condition :=
  marked.filterMap fun condition => if condition.2 then none else some condition.1

/-- Conditions whose fields may be qualified are read as their tokens. -/
theorem readsEach_qualifiedConditions {marked : List (Condition × Bool)}
    {words : List (List Char)} (written : WritesQualifiedConditions marked words) :
    ∃ spellings : List QualifiedCondition,
      ReadsEach (listKinds [.keyword .WHERE] (.keyword .AND)
        (spellings.map QualifiedCondition.kinds)) words ∧
      spellings.filterMap QualifiedCondition.understood? = unqualified marked := by
  cases written with
  | none => exact ⟨[], .nil, rfl⟩
  | some keyword list =>
    obtain ⟨spellings, some, each, same⟩ :=
      readsEach_list list (fun _ _ => readsEach_qualifiedCondition) (fun _ => readsAlone_keyword)
    refine ⟨spellings, ?_, ?_⟩
    · rw [listKinds, if_neg (by simpa using some)]
      exact .cons (readsAlone_keyword keyword) each
    · have understood := congrArg (List.filterMap id) same
      rwa [List.filterMap_map, List.filterMap_map] at understood

/-- A grouping whose fields may be qualified is read as its tokens. -/
theorem readsEach_qualifiedGrouping {fields : List String} {words : List (List Char)}
    (written : WritesQualifiedGrouping fields words) :
    ∃ spellings : List FieldSpelling,
      ReadsEach (listKinds [.keyword .GROUP, .keyword .BY] .comma
        (spellings.map FieldSpelling.kinds)) words ∧
      spellings.map (fun field => String.ofList field.text) = fields := by
  cases written with
  | none => exact ⟨[], .nil, rfl⟩
  | some keyword second list =>
    have one (field : String) (words : List (List Char)) (written :
        ∃ word, words = [word] ∧ (WritesName field word ∨ WritesQualified field word)) :
        ∃ spelling : FieldSpelling, ReadsEach spelling.kinds words ∧
          String.ofList spelling.text = id field := by
      obtain ⟨word, rfl, named | qualified⟩ := written
      · exact readsAlone_field (.name named)
      · exact readsEach_qualified qualified
    obtain ⟨spellings, some, each, same⟩ := readsEach_list list one (fun _ => readsAlone_comma)
    refine ⟨spellings, ?_, by simpa using same⟩
    rw [listKinds, if_neg (by simpa using some)]
    exact .cons (readsAlone_keyword keyword) (.cons (readsAlone_keyword second) each)

/-! ## Reading past qualifiers -/

variable {items : List SelectItem} {table : String} {marked : List (Condition × Bool)}
  {grouping : List String} {words : List (List Char)} {text : String}

/-- A table and what follows it are merged into a query with both. -/
theorem merge_table (table : String) (conditions : List Condition) (grouping : List String) :
    Query.merge { table } { conditions, grouping } = { table, conditions, grouping } := by
  by_cases unnamed : table = "" <;> simp [Query.merge, unnamed]

/-- A query in which fields may be qualified is read as the query without the qualifiers, but
for the conditions on qualified fields, which are dropped. -/
theorem ofText_qualified (written : WritesQualifiedQuery items table marked grouping words)
    (spaced : Spaced words text.toList) :
    Query.ofText text = (mergeAll (items.map SelectItem.query)).merge
      { table, conditions := unqualified marked, grouping } := by
  obtain ⟨first, list, second, named, filtered, grouped⟩ := written
  obtain ⟨itemSpellings, _, itemsEach, itemsSame⟩ :=
    readsEach_list list (fun _ _ => readsEach_qualifiedItem) (fun _ => readsAlone_comma)
  obtain ⟨tableSpelling, tableAlone, rfl⟩ := readsAlone_name named
  obtain ⟨conditionSpellings, conditionsEach, conditionsSame⟩ :=
    readsEach_qualifiedConditions filtered
  obtain ⟨groupingSpellings, groupingEach, rfl⟩ := readsEach_qualifiedGrouping grouped
  let sentence : Sentence := ⟨itemSpellings, tableSpelling, [], []⟩
  have front : ReadsEach sentence.kinds (_ :: (_ ++ [_, _])) :=
    .cons (readsAlone_keyword first) (itemsEach.append
      (.cons (readsAlone_keyword second) (.cons tableAlone .nil)))
  have each := front.append (conditionsEach.append groupingEach)
  rw [List.cons_append, List.append_assoc] at each
  obtain ⟨frontTokens, backTokens, shape, frontShape, backShape⟩ :=
    List.map_eq_append_iff.mp (spaced.kinds_scan each)
  obtain ⟨after, back⟩ := Sentence.ofTokens_items backShape QualifiedCondition.isItem
    fun _ _ same => QualifiedCondition.readCondition_of_kinds same
  rw [Query.ofText, shape, ofTokens_afterClause after, Sentence.ofTokens_of_kinds frontShape, back,
    conditionsSame, Sentence.query, Query.merge_assoc, itemsSame]
  exact congrArg (Query.merge _) (merge_table _ _ _)

/-- The conditions that are left are all conditions only if no field is qualified. -/
theorem unqualified_eq_iff : unqualified marked = marked.map Prod.fst ↔
    ∀ condition ∈ marked, condition.2 = false := by
  constructor
  · intro same
    have lengths := congrArg List.length same
    rw [unqualified, List.length_map, List.filterMap_length_eq_length] at lengths
    intro condition member
    simpa using lengths condition member
  · intro plain
    rw [unqualified, ← List.filterMap_eq_map]
    refine List.filterMap_congr fun condition member => ?_
    simp [plain condition member]

/-- Let a text write a query of the grammar, and another text write the same query with
qualifiers in front of any of its fields: those that are selected, those that functions are
called with, those of the grouping, and those of the conditions that are marked. Then the
second text is read as the first one without the marked conditions. So both texts are read as
the same query if and only if no field of a condition is qualified. -/
theorem reads_past_qualifiers {qualifiedWords : List (List Char)} {qualifiedText : String}
    (written : WritesQuery items table (marked.map Prod.fst) grouping words)
    (spaced : Spaced words text.toList)
    (qualified : WritesQualifiedQuery items table marked grouping qualifiedWords)
    (qualifiedSpaced : Spaced qualifiedWords qualifiedText.toList) :
    Query.ofText qualifiedText = { Query.ofText text with conditions := unqualified marked } ∧
      (Query.ofText qualifiedText = Query.ofText text ↔
        ∀ condition ∈ marked, condition.2 = false) := by
  obtain ⟨sentence, each, same⟩ := readsEach_query written
  have plain : Query.ofText text = (mergeAll (items.map SelectItem.query)).merge
      { table, conditions := marked.map Prod.fst, grouping } := by
    rw [Query.ofText, Sentence.ofTokens_of_kinds (spaced.kinds_scan each), same]
  rw [ofText_qualified qualified qualifiedSpaced, plain, mergeAll_selectItems]
  refine ⟨by simp [Query.merge], ?_⟩
  rw [← unqualified_eq_iff]
  simp [Query.merge]

/-- Qualifiers in every clause, bare and in quotes, one of them with gaps beside its dot. -/
theorem reads_past_qualifiers_everywhere :
    let plain := "SELECT n , SUM ( \"m\" ) FROM t WHERE n = 'x' AND m > n GROUP BY n"
    let qualified :=
      "SELECT t.n , SUM ( \"a b\".\"m\" ) FROM t WHERE n = 'x' AND t--\n. m > n GROUP BY t.n"
    Query.ofText qualified = { Query.ofText plain with conditions := [⟨"n", .equal, "x"⟩] } ∧
      Query.ofText qualified ≠ Query.ofText plain := by
  intro plain qualified
  have bare : IsBareName "n".toList ∧ IsBareName "m".toList ∧ IsBareName "t".toList ∧
      IsBareName "SUM".toList := by
    decide
  have comment : Gap false "--\n".toList := .opens (.ends .nil)
  have space : Gap false " ".toList := .blank (by decide) .nil
  have n : WritesQualified "n" "t.n".toList := .intro (.bare bare.2.2.1) (.bare bare.1) .nil .nil
  have m : WritesQualified "m" "t--\n. m".toList :=
    .intro (.bare bare.2.2.1) (.bare bare.2.1) comment space
  have quoted : WritesQualified "m" "\"a b\".\"m\"".toList :=
    .intro (.quoted "a b") (.quoted "m") .nil .nil
  have equal : WritesCondition ⟨"n", .equal, "x"⟩ (["n", "=", "'x'"].map String.toList) :=
    .intro (.bare bare.1) rfl (.quoted "x")
  have greater : WritesCondition ⟨"m", .greater, "n"⟩ (["m", ">", "n"].map String.toList) :=
    .intro (.bare bare.2.1) rfl (.bare bare.1)
  have qualifiedGreater : WritesQualifiedCondition (⟨"m", .greater, "n"⟩, true)
      (["t--\n. m", ">", "n"].map String.toList) :=
    .qualified m rfl (.bare bare.1)
  let plainWords := ["SELECT", "n", ",", "SUM", "(", "\"m\"", ")", "FROM", "t", "WHERE", "n", "=",
    "'x'", "AND", "m", ">", "n", "GROUP", "BY", "n"]
  let qualifiedWords := ["SELECT", "t.n", ",", "SUM", "(", "\"a b\".\"m\"", ")", "FROM", "t",
    "WHERE", "n", "=", "'x'", "AND", "t--\n. m", ">", "n", "GROUP", "BY", "t.n"]
  have written : WritesQuery [.field "n", .aggregation ⟨.ofName "SUM", "m", "m"⟩] "t"
      [⟨"n", .equal, "x"⟩, ⟨"m", .greater, "n"⟩] ["n"]
      (plainWords.map String.toList) :=
    .intro (by decide)
      (.cons (.field (.name (.bare bare.1))) rfl
        (.single (.call bare.2.2.2 (.name (.quoted "m")))))
      (by decide) (.bare bare.2.2.1)
      (.some (by decide) (.cons equal (by decide) (.single greater)))
      (.some (by decide) (by decide) (.single ⟨_, rfl, .bare bare.1⟩))
  have writtenQualified : WritesQualifiedQuery
      [.field "n", .aggregation ⟨.ofName "SUM", "m", "m"⟩] "t"
      [(⟨"n", .equal, "x"⟩, false), (⟨"m", .greater, "n"⟩, true)] ["n"]
      (qualifiedWords.map String.toList) :=
    .intro (by decide) (.cons (.field n) rfl (.single (.call bare.2.2.2 quoted)))
      (by decide) (.bare bare.2.2.1)
      (.some (by decide) (.cons (.plain equal) (by decide) (.single qualifiedGreater)))
      (.some (by decide) (by decide) (.single ⟨_, rfl, .inr n⟩))
  have spaced : Spaced (plainWords.map String.toList) plain.toList :=
    (congrArg (Spaced _) (by decide +kernel)).mp (spaced_intercalate (List.cons_ne_nil _ _))
  have spacedQualified : Spaced (qualifiedWords.map String.toList) qualified.toList :=
    (congrArg (Spaced _) (by decide +kernel)).mp (spaced_intercalate (List.cons_ne_nil _ _))
  obtain ⟨same, iff⟩ := reads_past_qualifiers written spaced writtenQualified spacedQualified
  refine ⟨same, fun equal => ?_⟩
  exact absurd (iff.mp equal) (by decide)

/-- A qualified field is read as the field in a select list, and not in a condition: the
condition is dropped. -/
theorem qualified_condition_dropped :
    Query.ofText "SELECT s.region FROM sales WHERE s.region = 'West'" =
        { fields := ["region"], table := "sales" } ∧
      Query.ofText "SELECT region FROM sales WHERE region = 'West'" =
        { fields := ["region"], table := "sales", conditions := [⟨"region", .equal, "West"⟩] } := by
  decide +kernel

end MetricQuery
