import MetricQuery.Engine
import MetricQuery.Proofs.Accumulator
import MetricQuery.Proofs.SortedMap

/-!
# Queries as values of whole tables

The engine builds its groups in one pass, row by row. What it computes can be
said without the pass. The rows that satisfy the conditions are told apart by
the texts of their grouping fields; each of these keys, in the order in which
they first occur, gives one row, made of the first row with the key and of the
value of each aggregation over all rows with the key.

The pass is followed by an invariant: the groups after some rows are those that
belong to the keys of these rows, each with the states that its own rows lead
to. The main statement is that running a query is evaluating it in this sense,
for every query, every table, every set of replaced names and either policy of
counting.
-/

namespace MetricQuery

/-- A list without its repetitions has none. -/
theorem nodup_eraseDups {α : Type} [BEq α] [LawfulBEq α] (list : List α) :
    list.eraseDups.Nodup := by
  match list with
  | [] => simp
  | first :: later =>
    rw [List.eraseDups_cons, List.nodup_cons]
    constructor
    · simp [List.mem_eraseDups]
    · exact nodup_eraseDups _
termination_by list.length
decreasing_by exact Nat.lt_succ_of_le (List.length_filter_le _ _)

/-- One more element at the end is kept if it did not occur before. -/
theorem eraseDups_append_new {α : Type} [BEq α] [LawfulBEq α] {list : List α} {last : α}
    (fresh : last ∉ list) : (list ++ [last]).eraseDups = list.eraseDups ++ [last] := by
  simp [List.eraseDups_append, List.removeAll, fresh, List.eraseDups_cons]

/-- One more element at the end is dropped if it did occur before. -/
theorem eraseDups_append_known {α : Type} [BEq α] [LawfulBEq α] {list : List α} {last : α}
    (known : last ∈ list) : (list ++ [last]).eraseDups = list.eraseDups := by
  simp [List.eraseDups_append, List.removeAll, known]

/-- The group keys of some rows, in the order in which they first occur. -/
def distinctKeys (grouping : List String) (rows : List Row) : List (List String) :=
  (rows.map (groupKey grouping)).eraseDups

/-- A group key has the text of the cell for each field, and the empty text for a field that
the row does not have. -/
theorem groupKey_eq (grouping : List String) :
    groupKey grouping = fun row => grouping.map fun field =>
      match row.get? field with
      | some cell => cell.shown
      | none => "" := by
  funext row
  refine List.map_congr_left fun field _ => ?_
  cases row.get? field <;> rfl

/-- The rows with a group key, in their order. -/
def rowsOf (grouping : List String) (key : List String) (rows : List Row) : List Row :=
  rows.filter fun row => groupKey grouping row = key

namespace Engine

variable (engine : Engine) (query : Query)

/-- The cell that a field refers to: under the name that replaced the field, or
else under its own name, or else no content. -/
def fieldCell (field : String) (row : Row) : Cell :=
  match row.get? (engine.aliases.resolve field) with
  | some cell => cell
  | none =>
      match row.get? field with
      | some cell => cell
      | none => .null

/-- The value of an aggregation over some rows. -/
def value (aggregation : Aggregation) (rows : List Row) : Cell :=
  aggregation.function.over engine.seed (rows.map (engine.fieldCell aggregation.field))

/-- The result row of a group: the identifying field and the grouping fields of
its first row, overwritten by the aggregations in their order. -/
def groupRow (rows : List Row) : Row :=
  query.aggregations.foldl
    (fun row aggregation => row.insert aggregation.column (engine.value aggregation rows))
    ((rows.head?.getD .empty).restrict (idField :: query.grouping))

/-- What a query asks for in the rows of a table. -/
def evaluate (rows : List Row) : List Row :=
  if query.isEmpty then []
  else
    let kept := rows.filter fun row => query.conditions.all fun condition => condition.holds row
    if query.grouping = [] then kept
    else
      (distinctKeys query.grouping kept).map fun key =>
        engine.groupRow query (rowsOf query.grouping key kept)

/-- An aggregation reads the cell that its field refers to. -/
theorem source_eq_fieldCell (row : Row) (aggregation : Aggregation) :
    engine.source row aggregation = engine.fieldCell aggregation.field row := by
  unfold source fieldCell FieldAliases.read
  cases row.get? (engine.aliases.resolve aggregation.field) with
  | some cell => rfl
  | none => cases row.get? aggregation.field <;> rfl

/-- The group of a key that has taken some rows. -/
def groupOf (key : List String) (rows : List Row) : Group where
  key := key
  row := firstFields query.grouping (rows.head?.getD .empty)
  states := query.aggregations.map fun aggregation =>
    .after aggregation.function engine.seed (rows.map (engine.fieldCell aggregation.field))

/-- A group starts in the state after its first row. -/
theorem startGroup_eq_groupOf (key : List String) (row : Row) :
    engine.startGroup query key row = engine.groupOf query key [row] := by
  simp [startGroup, groupOf, Accumulator.start_eq_after, source_eq_fieldCell]

/-- Taking a row into a group goes from the state after some rows to the state
after one more. -/
theorem extendGroup_groupOf (key : List String) {rows : List Row} (some : rows ≠ []) (row : Row) :
    engine.extendGroup query row (engine.groupOf query key rows) =
      engine.groupOf query key (rows ++ [row]) := by
  have first : (rows ++ [row]).head? = rows.head? := by
    cases rows with
    | nil => exact absurd rfl some
    | cons first later => rfl
  have states (aggregation : Aggregation) :
      (Accumulator.after aggregation.function engine.seed
        (rows.map (engine.fieldCell aggregation.field))).apply
          (engine.fieldCell aggregation.field row) =
        .after aggregation.function engine.seed
          ((rows ++ [row]).map (engine.fieldCell aggregation.field)) := by
    rw [Accumulator.apply_after _ _ (by simpa using some), List.map_append]
    rfl
  simp [extendGroup, groupOf, first, source_eq_fieldCell, List.zipWith_map_left,
    List.zipWith_self, states]

/-- The groups of some rows, each with the states that its own rows lead to. -/
def groupsOf (rows : List Row) : List Group :=
  (distinctKeys query.grouping rows).map fun key =>
    engine.groupOf query key (rowsOf query.grouping key rows)

/-- A row of a key without a group becomes the first row of a new group at the end. -/
theorem addRow_new {key : List String} {row : Row} {groups : List Group}
    (fresh : ∀ group ∈ groups, group.key ≠ key) :
    engine.addRow query key row groups = groups ++ [engine.startGroup query key row] := by
  induction groups with
  | nil => rfl
  | cons group later inductionHypothesis =>
    obtain ⟨otherKey, laterFresh⟩ := List.forall_mem_cons.mp fresh
    rw [addRow, if_neg otherKey, inductionHypothesis laterFresh, List.cons_append]

/-- A row of a key with a group goes into the group of its key, and no other group
changes. -/
theorem addRow_known {key : List String} {row : Row} {keys : List (List String)}
    {groupAt : List String → Group} (keyed : ∀ other, (groupAt other).key = other)
    (distinct : keys.Nodup) (known : key ∈ keys) :
    engine.addRow query key row (keys.map groupAt) =
      keys.map fun other =>
        if other = key then engine.extendGroup query row (groupAt other) else groupAt other := by
  induction keys with
  | nil => simp at known
  | cons first later inductionHypothesis =>
    obtain ⟨notLater, laterDistinct⟩ := List.nodup_cons.mp distinct
    by_cases here : first = key
    · subst here
      have untouched : ∀ other ∈ later,
          groupAt other =
            if other = first then engine.extendGroup query row (groupAt other)
            else groupAt other := by
        intro other member
        have apart : other ≠ first := fun same => notLater (same ▸ member)
        rw [if_neg apart]
      rw [List.map_cons, addRow, if_pos (keyed first), List.map_cons, if_pos rfl,
        List.map_congr_left untouched]
    · have behind : key ∈ later := (List.mem_cons.mp known).resolve_left (Ne.symm here)
      rw [List.map_cons, addRow, if_neg (by rwa [keyed]), inductionHypothesis laterDistinct behind,
        List.map_cons, if_neg here]

/-- A row at the end belongs to the rows of its key, as the last one. -/
theorem rowsOf_append (grouping : List String) (key : List String) (rows : List Row) (row : Row) :
    rowsOf grouping key (rows ++ [row]) =
      if groupKey grouping row = key then rowsOf grouping key rows ++ [row]
      else rowsOf grouping key rows := by
  by_cases same : groupKey grouping row = key
  · simp [rowsOf, same]
  · simp [rowsOf, same]

/-- A key occurs among the keys of some rows exactly if it has rows. -/
theorem rowsOf_ne_nil_iff {grouping : List String} {key : List String} {rows : List Row} :
    rowsOf grouping key rows ≠ [] ↔ key ∈ rows.map (groupKey grouping) := by
  constructor
  · intro some
    obtain ⟨row, member⟩ := List.exists_mem_of_ne_nil _ some
    obtain ⟨listed, same⟩ := List.mem_filter.mp member
    exact List.mem_map.mpr ⟨row, listed, of_decide_eq_true same⟩
  · intro member
    obtain ⟨row, listed, same⟩ := List.mem_map.mp member
    exact List.ne_nil_of_mem (List.mem_filter.mpr ⟨listed, decide_eq_true same⟩)

/-- A row of a known key goes into its group. -/
theorem addRow_groupsOf_known {rows : List Row} {row : Row}
    (known : groupKey query.grouping row ∈ rows.map (groupKey query.grouping)) :
    engine.addRow query (groupKey query.grouping row) row (engine.groupsOf query rows) =
      engine.groupsOf query (rows ++ [row]) := by
  have keys : distinctKeys query.grouping (rows ++ [row]) = distinctKeys query.grouping rows := by
    rw [distinctKeys, List.map_append, List.map_singleton, eraseDups_append_known known]
    rfl
  have listed : groupKey query.grouping row ∈ distinctKeys query.grouping rows :=
    List.mem_eraseDups.mpr known
  have keyed : ∀ key, (engine.groupOf query key (rowsOf query.grouping key rows)).key = key :=
    fun _ => rfl
  have distinct : (distinctKeys query.grouping rows).Nodup := nodup_eraseDups _
  rw [groupsOf, addRow_known engine query keyed distinct listed, groupsOf, keys]
  refine List.map_congr_left ?_
  intro key member
  rw [rowsOf_append]
  by_cases same : key = groupKey query.grouping row
  · rw [if_pos same, if_pos same.symm]
    have some := rowsOf_ne_nil_iff.mpr (List.mem_eraseDups.mp member)
    exact engine.extendGroup_groupOf query key some row
  · rw [if_neg same, if_neg (Ne.symm same)]

/-- A row of a new key starts a group. -/
theorem addRow_groupsOf_new {rows : List Row} {row : Row}
    (fresh : groupKey query.grouping row ∉ rows.map (groupKey query.grouping)) :
    engine.addRow query (groupKey query.grouping row) row (engine.groupsOf query rows) =
      engine.groupsOf query (rows ++ [row]) := by
  have keys : distinctKeys query.grouping (rows ++ [row]) =
      distinctKeys query.grouping rows ++ [groupKey query.grouping row] := by
    rw [distinctKeys, List.map_append, List.map_singleton, eraseDups_append_new fresh]
    rfl
  have noGroup : ∀ group ∈ engine.groupsOf query rows, group.key ≠ groupKey query.grouping row := by
    intro group member same
    obtain ⟨key, listed, rfl⟩ := List.mem_map.mp member
    exact fresh (same ▸ List.mem_eraseDups.mp listed)
  have others : ∀ key ∈ distinctKeys query.grouping rows,
      engine.groupOf query key (rowsOf query.grouping key rows) =
        engine.groupOf query key (rowsOf query.grouping key (rows ++ [row])) := by
    intro key member
    have apart : groupKey query.grouping row ≠ key :=
      fun same => fresh (same ▸ List.mem_eraseDups.mp member)
    rw [rowsOf_append, if_neg apart]
  have alone : rowsOf query.grouping (groupKey query.grouping row) (rows ++ [row]) = [row] := by
    have nothing : rowsOf query.grouping (groupKey query.grouping row) rows = [] := by
      by_cases some : rowsOf query.grouping (groupKey query.grouping row) rows = []
      · exact some
      · exact absurd (rowsOf_ne_nil_iff.mp some) fresh
    rw [rowsOf_append, if_pos rfl, nothing, List.nil_append]
  rw [addRow_new engine query noGroup, groupsOf, List.map_congr_left others, groupsOf, keys,
    List.map_append, List.map_singleton, alone, startGroup_eq_groupOf]

/-- Taking a row goes from the groups of some rows to the groups of one more. -/
theorem addRow_groupsOf (rows : List Row) (row : Row) :
    engine.addRow query (groupKey query.grouping row) row (engine.groupsOf query rows) =
      engine.groupsOf query (rows ++ [row]) := by
  by_cases known : groupKey query.grouping row ∈ rows.map (groupKey query.grouping)
  · exact engine.addRow_groupsOf_known query known
  · exact engine.addRow_groupsOf_new query known

/-- Taking further rows one at a time leads to the groups of all of them. -/
theorem foldl_addRow_groupsOf (rows later : List Row) :
    later.foldl (fun groups row => engine.addRow query (groupKey query.grouping row) row groups)
      (engine.groupsOf query rows) = engine.groupsOf query (rows ++ later) := by
  induction later generalizing rows with
  | nil => rw [List.foldl_nil, List.append_nil]
  | cons row later inductionHypothesis =>
    rw [List.foldl_cons, addRow_groupsOf, inductionHypothesis, List.append_assoc,
      List.singleton_append]

/-- The pass over some rows builds the groups of these rows. -/
theorem groups_eq_groupsOf (rows : List Row) :
    engine.groups query rows = engine.groupsOf query rows :=
  engine.foldl_addRow_groupsOf query [] rows

/-- Copying one more field restricts a row to one more field. -/
theorem copyField_restrict (first : Row) (fields : List String) (field : String) :
    copyField first (first.restrict fields) field = first.restrict (fields ++ [field]) := by
  refine SortedMap.ext_get? ?_
  intro key
  rw [SortedMap.get?_restrict, copyField]
  cases bound : first.get? field with
  | none =>
    by_cases same : key = field
    · subst same
      simp [SortedMap.get?_restrict, bound]
    · simp [SortedMap.get?_restrict, same]
  | some cell =>
    by_cases same : key = field
    · subst same
      simp [SortedMap.get?_insert, bound]
    · simp [SortedMap.get?_insert, SortedMap.get?_restrict, same]

/-- Copying fields in order restricts a row to these fields. -/
theorem foldl_copyField (first : Row) (fields more : List String) :
    more.foldl (copyField first) (first.restrict fields) = first.restrict (fields ++ more) := by
  induction more generalizing fields with
  | nil => rw [List.foldl_nil, List.append_nil]
  | cons field more inductionHypothesis =>
    rw [List.foldl_cons, copyField_restrict, inductionHypothesis, List.append_assoc,
      List.singleton_append]

/-- The first row of a group gives its identifying field and its grouping fields. -/
theorem firstFields_eq_restrict (grouping : List String) (first : Row) :
    firstFields grouping first = first.restrict (idField :: grouping) := by
  have nothing : (.empty : Row) = first.restrict [] := by
    refine SortedMap.ext_get? ?_
    intro key
    rw [SortedMap.get?_restrict]
    simp
  rw [firstFields, nothing, copyField_restrict, foldl_copyField]
  rfl

/-- The result row of a group is the result row of its rows. -/
theorem finish_groupOf (key : List String) (rows : List Row) :
    finish query (engine.groupOf query key rows) = engine.groupRow query rows := by
  have paired : List.zip query.aggregations (engine.groupOf query key rows).states =
      query.aggregations.map fun aggregation =>
        (aggregation, .after aggregation.function engine.seed
          (rows.map (engine.fieldCell aggregation.field))) := by
    have whole := List.zip_map' (f := id)
      (g := fun aggregation : Aggregation => Accumulator.after aggregation.function engine.seed
        (rows.map (engine.fieldCell aggregation.field))) (l := query.aggregations)
    rwa [List.map_id] at whole
  rw [finish, paired, List.foldl_map]
  simp only [Accumulator.result_after]
  rw [groupOf, firstFields_eq_restrict]
  rfl

/-- Running a query over the rows of a table is evaluating it. -/
theorem run_eq_evaluate (rows : List Row) : engine.run query rows = engine.evaluate query rows := by
  have grouped (kept : List Row) : (engine.groups query kept).map (finish query) =
      (distinctKeys query.grouping kept).map fun key =>
        engine.groupRow query (rowsOf query.grouping key kept) := by
    rw [groups_eq_groupsOf, groupsOf, List.map_map]
    exact List.map_congr_left fun key _ => engine.finish_groupOf query key _
  rw [run, evaluate]
  by_cases empty : query.isEmpty = true
  · rw [if_pos empty, if_pos empty]
  rw [if_neg empty, if_neg empty]
  by_cases ungrouped : query.grouping = []
  · rw [if_pos ungrouped, if_pos (List.isEmpty_iff.mpr ungrouped)]
    rfl
  · rw [if_neg ungrouped, if_neg (fun nothing => ungrouped (List.isEmpty_iff.mp nothing))]
    exact grouped _

/-- What running a query over the rows of a table gives, with nothing left to
compute step by step. A query that asks for nothing gives no rows, and without a
grouping the rows that satisfy all conditions are given as they are. Otherwise
each list of texts of the grouping fields, in the order in which these lists
first occur, gives one row: the identifying field and the grouping fields of the
first row with these texts, overwritten in order by the value of each
aggregation over the cells of all rows with these texts. A grouping field that a
row does not have counts as the empty text, and an aggregation reads its field
under the name that replaced it, or else under its own. -/
theorem run_eq_values_of_groups (rows : List Row) :
    engine.run query rows =
      if query.isEmpty then []
      else
        let kept := rows.filter fun row => query.conditions.all fun condition => condition.holds row
        if query.grouping = [] then kept
        else
          let texts (row : Row) : List String := query.grouping.map fun field =>
            match row.get? field with
            | some cell => cell.shown
            | none => ""
          (kept.map texts).eraseDups.map fun key =>
            let members := kept.filter fun row => texts row = key
            query.aggregations.foldl
              (fun row aggregation =>
                let renamed :=
                  (SortedMap.get? engine.aliases aggregation.field).getD aggregation.field
                row.insert aggregation.column
                  (aggregation.function.over engine.seed
                    (members.map fun member =>
                      match member.get? renamed with
                      | some cell => cell
                      | none => (member.get? aggregation.field).getD .null)))
              ((members.head?.getD .empty).restrict ("id" :: query.grouping)) := by
  have cell (field : String) (member : Row) : engine.fieldCell field member =
      match member.get? ((SortedMap.get? engine.aliases field).getD field) with
      | some cell => cell
      | none => (member.get? field).getD .null := by
    rw [fieldCell, FieldAliases.resolve]
    cases member.get? field <;> rfl
  rw [run_eq_evaluate, evaluate]
  simp only [distinctKeys, rowsOf, groupKey_eq, groupRow, value, idField, funext (cell _)]

/-- Rows are grouped by two fields, one of which may be missing or empty or have the sign in
it that joins keys. Numbers and texts of numbers are combined under either name of their field,
a count starts with what its first cell holds, and the last aggregation overwrites a grouping
field. -/
theorem run_eq_values_of_groups_of_mixed_rows :
    let query : Query := {
      aggregations := [⟨.sum, "sales", "sum"⟩, ⟨.average, "sales", "average"⟩,
        ⟨.minimum, "sales", "least"⟩, ⟨.count, "sales", "count"⟩,
        ⟨.other "first", "sales", "first"⟩, ⟨.maximum, "sales", "kind"⟩]
      conditions := [⟨"region", .like, "%st%"⟩]
      grouping := ["region", "kind"] }
    let number (digits : Nat) (place : Int) := Cell.number (Decimal.ofDecimal false digits place)
    let rows : List Row := [
      .ofList [("id", .text "1"), ("region", .text "East"), ("kind", .null),
        ("revenue", number 4 0), ("sales", number 9 0)],
      .ofList [("id", .text "2"), ("region", .text "West"), ("kind", .text "a"),
        ("revenue", .text "none")],
      .ofList [("id", .text "3"), ("region", .text "North"), ("revenue", number 8 0)],
      .ofList [("id", .text "4"), ("region", .text "East|"), ("kind", .text "b")],
      .ofList [("id", .text "5"), ("region", .text "East"), ("sales", .text "2.5")],
      .ofList [("region", .text "East"), ("kind", .text "|b"), ("revenue", number 5 0)],
      .ofList [("id", .text "6"), ("region", .text "East"), ("kind", .text ""),
        ("revenue", number 7 0)]]
    Engine.run { seed := .fieldValue } query rows = [
      .ofList [("id", .text "1"), ("region", .text "East"), ("sum", number 135 (-1)),
        ("average", number 45 (-1)), ("least", number 25 (-1)), ("count", number 6 0),
        ("first", number 4 0), ("kind", number 7 0)],
      .ofList [("id", .text "2"), ("region", .text "West"), ("sum", .null), ("average", .null),
        ("least", .null), ("count", .null), ("first", .text "none"), ("kind", .null)],
      .ofList [("id", .text "4"), ("region", .text "East|"), ("sum", .null), ("average", .null),
        ("least", .null), ("count", number 0 0), ("first", .null), ("kind", .null)],
      .ofList [("region", .text "East"), ("sum", number 5 0), ("average", number 5 0),
        ("least", number 5 0), ("count", number 5 0), ("first", number 5 0),
        ("kind", number 5 0)]] := by
  intro query number rows
  exact (run_eq_values_of_groups _ query rows).trans (by decide +kernel)

end Engine

end MetricQuery
