import MetricQuery.Proofs.Cell
import MetricQuery.Proofs.Engine

/-!
# Conditions on grouping fields

Rows belong to one group if their grouping fields show the same texts. A condition
on a grouping field does not tell such rows apart either, although it reads cells
as numbers where the key of a group reads them as texts. It therefore keeps or
drops each group as a whole, and which of the two it is can be seen in the group's
key as well as in its result row, which has the grouping fields of its first row.

The main statement is that one more condition on a grouping field may be checked
before the rows are grouped or afterwards, on the result rows.
-/

namespace MetricQuery

/-- Repetitions may be dropped before or after a list is filtered. -/
theorem eraseDups_filter {α : Type} [BEq α] [LawfulBEq α] (keeps : α → Bool) (list : List α) :
    (list.filter keeps).eraseDups = list.eraseDups.filter keeps := by
  induction list using List.reverseRecOn with
  | nil => rfl
  | append_singleton earlier last inductionHypothesis =>
    rw [List.filter_append]
    by_cases known : last ∈ earlier
    · rw [eraseDups_append_known known, ← inductionHypothesis]
      cases kept : keeps last with
      | true =>
        rw [List.filter_singleton, kept, cond_true]
        exact eraseDups_append_known (List.mem_filter.mpr ⟨known, kept⟩)
      | false => rw [List.filter_singleton, kept, cond_false, List.append_nil]
    · rw [eraseDups_append_new known, List.filter_append, ← inductionHypothesis]
      cases kept : keeps last with
      | true =>
        rw [List.filter_singleton, kept, cond_true]
        exact eraseDups_append_new fun member => known (List.mem_filter.mp member).1
      | false => rw [List.filter_singleton, kept, cond_false, List.append_nil, List.append_nil]

namespace Condition

variable {condition : Condition} {grouping : List String}

/-- Whether the rows with a group key satisfy a condition on a grouping field. -/
def holdsForKey (condition : Condition) (grouping key : List String) : Bool :=
  condition.holdsFor (.text (key[grouping.idxOf condition.field]?.getD ""))

/-- A row satisfies a condition on a grouping field exactly if its key does. -/
theorem holdsForKey_groupKey (grouped : condition.field ∈ grouping) (row : Row) :
    condition.holdsForKey grouping (groupKey grouping row) = condition.holds row := by
  have found : grouping[grouping.idxOf condition.field]? = some condition.field :=
    List.getElem?_idxOf grouped
  have shown : ((row.get? condition.field).map Cell.shown).getD "" =
      (condition.cellOf row).shown := by
    rw [cellOf]
    cases row.get? condition.field with
    | none => rfl
    | some cell => rfl
  rw [holdsForKey, groupKey, List.getElem?_map, found, Option.map_some, Option.getD_some, shown,
    holdsFor_shown, holds]

/-- Rows of one group all satisfy a condition on a grouping field, or none of them does. -/
theorem holds_of_groupKey (grouped : condition.field ∈ grouping) {first second : Row}
    (same : groupKey grouping first = groupKey grouping second) :
    condition.holds first = condition.holds second := by
  rw [← holdsForKey_groupKey grouped, same, holdsForKey_groupKey grouped]

/-- The keys of the rows that satisfy a condition on a grouping field are the keys that
do. -/
theorem distinctKeys_filter (grouped : condition.field ∈ grouping) (rows : List Row) :
    distinctKeys grouping (rows.filter condition.holds) =
      (distinctKeys grouping rows).filter (condition.holdsForKey grouping) := by
  have same : condition.holds = condition.holdsForKey grouping ∘ groupKey grouping :=
    funext fun row => (holdsForKey_groupKey grouped row).symm
  rw [distinctKeys, distinctKeys, ← eraseDups_filter, List.filter_map, ← same]

/-- A condition on a grouping field that a key satisfies drops no row with the key. -/
theorem rowsOf_filter (grouped : condition.field ∈ grouping) {key : List String}
    (satisfied : condition.holdsForKey grouping key = true) (rows : List Row) :
    rowsOf grouping key (rows.filter condition.holds) = rowsOf grouping key rows := by
  rw [rowsOf, List.filter_filter]
  refine List.filter_congr ?_
  intro row _
  by_cases same : groupKey grouping row = key
  · have holds : condition.holds row = true := by
      rw [← holdsForKey_groupKey grouped, same, satisfied]
    simp [same, holds]
  · simp [same]

end Condition

namespace Engine

variable (engine : Engine) {query : Query} {condition : Condition}

/-- A field that is no column of an aggregation is not overwritten. -/
theorem get?_insertValues {aggregations : List Aggregation} {field : String}
    (value : Aggregation → Cell) (other : ∀ aggregation ∈ aggregations, aggregation.column ≠ field)
    (row : Row) :
    (aggregations.foldl (fun row aggregation => row.insert aggregation.column (value aggregation))
      row).get? field = row.get? field := by
  induction aggregations generalizing row with
  | nil => rfl
  | cons aggregation later inductionHypothesis =>
    obtain ⟨here, behind⟩ := List.forall_mem_cons.mp other
    rw [List.foldl_cons, inductionHypothesis behind, SortedMap.get?_insert, if_neg (Ne.symm here)]

/-- The result row of a group satisfies a condition on a grouping field exactly if the
key of the group does. -/
theorem holds_groupRow (grouped : condition.field ∈ query.grouping)
    (noColumn : ∀ aggregation ∈ query.aggregations, aggregation.column ≠ condition.field)
    {rows : List Row} {key : List String} (member : key ∈ distinctKeys query.grouping rows) :
    condition.holds (engine.groupRow query (rowsOf query.grouping key rows)) =
      condition.holdsForKey query.grouping key := by
  have some := rowsOf_ne_nil_iff.mpr (List.mem_eraseDups.mp member)
  obtain ⟨first, later, shape⟩ := List.exists_cons_of_ne_nil some
  have here : first ∈ rowsOf query.grouping key rows := shape ▸ List.mem_cons_self
  have keyed : groupKey query.grouping first = key := of_decide_eq_true (List.mem_filter.mp here).2
  have same : (engine.groupRow query (first :: later)).get? condition.field =
      first.get? condition.field := by
    rw [groupRow, get?_insertValues _ noColumn, SortedMap.get?_restrict,
      if_pos (List.mem_cons_of_mem _ grouped)]
    rfl
  rw [shape, ← keyed, Condition.holdsForKey_groupKey grouped, Condition.holds, Condition.holds,
    Condition.cellOf, Condition.cellOf, same]

/-- A query with a grouping gives the result rows of the groups of the rows it keeps. -/
theorem run_of_grouping (query : Query) (grouped : query.grouping ≠ []) (rows : List Row) :
    engine.run query rows =
      let kept := keepRows query.conditions rows
      (distinctKeys query.grouping kept).map fun key =>
        engine.groupRow query (rowsOf query.grouping key kept) := by
  have notEmpty : query.isEmpty = false := by simp [Query.isEmpty, grouped]
  rw [run_eq_evaluate, evaluate, if_neg (by simp [notEmpty])]
  exact if_neg grouped

/-- One more condition is checked on the rows that the others keep. -/
theorem keepRows_append (conditions : List Condition) (condition : Condition) (rows : List Row) :
    keepRows (conditions ++ [condition]) rows =
      (keepRows conditions rows).filter condition.holds := by
  rw [keepRows, keepRows, List.filter_filter]
  refine List.filter_congr ?_
  intro row _
  simp [satisfies, Bool.and_comm]

/-- The groups of the rows that satisfy a condition on a grouping field are the groups
whose result rows do. -/
theorem groupRows_filter (grouped : condition.field ∈ query.grouping)
    (noColumn : ∀ aggregation ∈ query.aggregations, aggregation.column ≠ condition.field)
    (rows : List Row) :
    ((distinctKeys query.grouping (rows.filter condition.holds)).map fun key =>
        engine.groupRow query (rowsOf query.grouping key (rows.filter condition.holds))) =
      ((distinctKeys query.grouping rows).map fun key =>
        engine.groupRow query (rowsOf query.grouping key rows)).filter condition.holds := by
  have satisfied : ∀ key ∈ (distinctKeys query.grouping rows).filter
      (condition.holdsForKey query.grouping),
      engine.groupRow query (rowsOf query.grouping key (rows.filter condition.holds)) =
        engine.groupRow query (rowsOf query.grouping key rows) := by
    intro key member
    rw [Condition.rowsOf_filter grouped (List.mem_filter.mp member).2]
  rw [Condition.distinctKeys_filter grouped, List.map_congr_left satisfied, List.filter_map]
  refine congrArg _ (List.filter_congr ?_)
  intro key member
  exact (engine.holds_groupRow grouped noColumn member).symm

/-- One more condition on a grouping field drops groups and changes none. If the field is
no column of an aggregation, running the query with the condition gives the result rows
of the query that satisfy it, in their order, whatever numbers, texts and empty or missing
cells the rows have. No group is split by it, since rows with the same key satisfy it
alike. -/
theorem condition_on_grouping_field (rows : List Row)
    (grouped : condition.field ∈ query.grouping)
    (noColumn : ∀ aggregation ∈ query.aggregations, aggregation.column ≠ condition.field) :
    engine.run { query with conditions := query.conditions ++ [condition] } rows =
        (engine.run query rows).filter condition.holds ∧
      ∀ first second : Row, groupKey query.grouping first = groupKey query.grouping second →
        condition.holds first = condition.holds second := by
  constructor
  · have someGrouping : query.grouping ≠ [] := List.ne_nil_of_mem grouped
    rw [engine.run_of_grouping { query with conditions := query.conditions ++ [condition] }
      someGrouping, engine.run_of_grouping query someGrouping]
    simp only [keepRows_append]
    exact engine.groupRows_filter grouped noColumn _
  · intro first second same
    exact Condition.holds_of_groupKey grouped same

/-- Numbers, texts, empty cells and missing ones that show alike are kept or dropped
together, here by a condition that reads them as numbers. -/
theorem condition_on_mixed_field :
    let query : Query := {
      aggregations := [⟨.count, "x", "rows"⟩]
      conditions := [⟨"id", .less, "9"⟩]
      grouping := ["x"] }
    let condition : Condition := ⟨"x", .atLeast, "0.0"⟩
    let rows : List Row := [
      .ofList [("id", .text "1"), ("x", .number (Decimal.ofNat 7))],
      .ofList [("id", .text "2"), ("x", .text "NaN")],
      .ofList [("id", .text "3"), ("x", .null)],
      .ofList [("id", .text "4"), ("x", .text "7")],
      .ofList [("id", .text "5"), ("x", .number (Decimal.assemble true 0))],
      .ofList [("id", .text "6")],
      .ofList [("id", .text "7"), ("x", .number Decimal.notANumber)],
      .ofList [("id", .text "8"), ("x", .text "0")],
      .ofList [("id", .text "9"), ("x", .text "")]]
    let results := Engine.run {} { query with conditions := query.conditions ++ [condition] } rows
    results = (Engine.run {} query rows).filter condition.holds ∧
      results.map (fun row => (row.get? "id").map Cell.shown) = [some "1", some "3", some "5"] := by
  intro query condition rows results
  constructor
  · exact (condition_on_grouping_field {} rows (by decide) (by decide)).1
  · decide +kernel

end Engine

end MetricQuery
