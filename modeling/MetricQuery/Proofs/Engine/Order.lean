import Mathlib.Data.List.Nodup
import MetricQuery.Proofs.Grouping

/-!
# The order of a query's lists

A query lists its conditions, its grouping fields and its aggregations in some order, and
that order leaves no trace in the rows that it gives.

Conditions are all checked, so only which ones are listed counts. Of the grouping fields
the key of a row takes one text each, in their order. Keys are laid out differently when
the fields are listed differently, but two rows have equal keys under one list exactly if
they have equal keys under the other, so both lists form the same groups from the same
first rows. Aggregations write to columns one after the other, which commutes where their
columns are different.
-/

namespace MetricQuery

/-- Dropping repetitions among the keys of some elements is taking the keys of those
elements whose key did not occur before. -/
theorem eraseDups_map {α β : Type} [BEq β] [LawfulBEq β] (key : α → β) (list : List α) :
    (list.map key).eraseDups = (list.eraseDupsBy fun x y => key x == key y).map key := by
  match list with
  | [] => rfl
  | first :: later =>
    have shorter := eraseDups_map key (later.filter fun x => decide ((key x == key first) = false))
    rw [List.map_cons, List.eraseDups_cons, List.eraseDupsBy_cons, List.map_cons, ← shorter,
      List.filter_map]
    congr 4
    funext x
    cases same : key x == key first <;> simp [same]
termination_by list.length
decreasing_by exact Nat.lt_succ_of_le (List.length_filter_le _ _)

/-- Rows have equal keys exactly if each grouping field shows the same text in both. -/
theorem groupKey_eq_iff {grouping : List String} {first second : Row} :
    groupKey grouping first = groupKey grouping second ↔
      ∀ field ∈ grouping, ((first.get? field).map Cell.shown).getD "" =
        ((second.get? field).map Cell.shown).getD "" := by
  rw [groupKey, groupKey, List.map_inj_left]

/-- The first rows of the groups of some rows, in their order. -/
def firstRows (grouping : List String) (rows : List Row) : List Row :=
  rows.eraseDupsBy fun first second => groupKey grouping first == groupKey grouping second

/-- The keys of some rows in the order in which they first occur are the keys of the first
rows of the groups. -/
theorem distinctKeys_eq_map_firstRows (grouping : List String) (rows : List Row) :
    distinctKeys grouping rows = (firstRows grouping rows).map (groupKey grouping) :=
  eraseDups_map (groupKey grouping) rows

section Grouping

variable {grouping other : List String} (same : ∀ field, field ∈ grouping ↔ field ∈ other)

include same

/-- The same fields in another order tell the same rows apart. -/
theorem groupKey_eq_congr (first second : Row) :
    groupKey grouping first = groupKey grouping second ↔
      groupKey other first = groupKey other second := by
  rw [groupKey_eq_iff, groupKey_eq_iff]
  exact forall_congr' fun field => by rw [same field]

/-- Groups start with the same rows. -/
theorem firstRows_congr (rows : List Row) : firstRows grouping rows = firstRows other rows := by
  rw [firstRows, firstRows]
  congr 1
  funext first second
  rw [Bool.eq_iff_iff, beq_iff_eq, beq_iff_eq, groupKey_eq_congr same]

/-- Groups have the same rows. -/
theorem rowsOf_congr (first : Row) (rows : List Row) :
    rowsOf grouping (groupKey grouping first) rows = rowsOf other (groupKey other first) rows := by
  refine List.filter_congr fun row _ => ?_
  rw [decide_eq_decide, groupKey_eq_congr same]

/-- The first row of a group gives the same fields to the result. -/
theorem restrict_congr (first : Row) :
    first.restrict (idField :: grouping) = first.restrict (idField :: other) := by
  refine SortedMap.ext_get? fun key => ?_
  simp only [SortedMap.get?_restrict, List.mem_cons, same key]

end Grouping

/-- Writing to two different columns gives the same row in either order. -/
theorem SortedMap.insert_comm {α : Type} (map : SortedMap α) {first second : String}
    (apart : first ≠ second) (x y : α) :
    (map.insert first x).insert second y = (map.insert second y).insert first x := by
  refine SortedMap.ext_get? fun key => ?_
  simp only [SortedMap.get?_insert]
  by_cases isFirst : key = first
  · subst isFirst
    simp [apart]
  · simp [isFirst]

/-- Aggregations with different columns write the same row in any order. -/
theorem foldl_insert_perm {aggregations others : List Aggregation}
    (perm : aggregations.Perm others) (distinct : (aggregations.map Aggregation.column).Nodup)
    (value : Aggregation → Cell) (row : Row) :
    aggregations.foldl (fun row aggregation => row.insert aggregation.column (value aggregation))
        row =
      others.foldl (fun row aggregation => row.insert aggregation.column (value aggregation))
        row := by
  refine perm.foldl_eq' ?_ row
  intro first firstListed second secondListed current
  by_cases same : first.column = second.column
  · rw [List.inj_on_of_nodup_map distinct firstListed secondListed same]
  · exact SortedMap.insert_comm current same _ _

/-- Whether two queries list the same things. Conditions and grouping fields may come in
another order and more or less often; aggregations may come in another order if their
columns are pairwise distinct. -/
structure Query.Rearranges (query other : Query) : Prop where
  /-- The same fields are selected. -/
  fields : query.fields = other.fields
  /-- The same table is read. -/
  table : query.table = other.table
  /-- The same conditions are listed. -/
  conditions : ∀ condition, condition ∈ query.conditions ↔ condition ∈ other.conditions
  /-- The same grouping fields are listed. -/
  grouping : ∀ field, field ∈ query.grouping ↔ field ∈ other.grouping
  /-- The aggregations are the same, or the same in another order with columns apart. -/
  aggregations : query.aggregations = other.aggregations ∨
    query.aggregations.Perm other.aggregations ∧
      (query.aggregations.map Aggregation.column).Nodup

namespace Query.Rearranges

variable {query other : Query}

/-- Lists of the same things are empty alike. -/
theorem isEmpty_eq_of_mem {α : Type} {list others : List α}
    (same : ∀ x, x ∈ list ↔ x ∈ others) : list.isEmpty = others.isEmpty := by
  rw [Bool.eq_iff_iff, List.isEmpty_iff, List.isEmpty_iff, List.eq_nil_iff_forall_not_mem,
    List.eq_nil_iff_forall_not_mem]
  exact forall_congr' fun x => not_congr (same x)

/-- Such queries ask for nothing alike. -/
theorem isEmpty_eq (rearranged : query.Rearranges other) : query.isEmpty = other.isEmpty := by
  have aggregations : query.aggregations.isEmpty = other.aggregations.isEmpty := by
    rcases rearranged.aggregations with same | ⟨perm, _⟩
    · rw [same]
    · exact isEmpty_eq_of_mem fun _ => perm.mem_iff
  rw [Query.isEmpty, Query.isEmpty, rearranged.fields, rearranged.table, aggregations,
    isEmpty_eq_of_mem rearranged.conditions, isEmpty_eq_of_mem rearranged.grouping]

/-- They keep the same rows. -/
theorem keepRows_eq (rearranged : query.Rearranges other) (rows : List Row) :
    keepRows query.conditions rows = keepRows other.conditions rows := by
  refine List.filter_congr fun row _ => ?_
  rw [satisfies, satisfies, Bool.eq_iff_iff, List.all_eq_true, List.all_eq_true]
  exact forall_congr' fun condition => by rw [rearranged.conditions condition]

/-- They give the same result row for a group. -/
theorem groupRow_eq (rearranged : query.Rearranges other) (engine : Engine) (rows : List Row) :
    engine.groupRow query rows = engine.groupRow other rows := by
  rw [Engine.groupRow, Engine.groupRow, restrict_congr rearranged.grouping]
  rcases rearranged.aggregations with same | ⟨perm, distinct⟩
  · rw [same]
  · exact foldl_insert_perm perm distinct (fun aggregation => engine.value aggregation rows) _

end Query.Rearranges

namespace Engine

variable (engine : Engine)

/-- Without a grouping a query that asks for something gives the rows that it keeps. -/
theorem run_of_ungrouped {query : Query} (asks : query.isEmpty = false)
    (ungrouped : query.grouping.isEmpty = true) (rows : List Row) :
    engine.run query rows = keepRows query.conditions rows := by
  rw [run, asks, ungrouped, if_neg Bool.false_ne_true, if_pos rfl]

/-- A query with a grouping gives one row for each first row of a group. -/
theorem run_eq_map_firstRows {query : Query} (grouped : query.grouping ≠ []) (rows : List Row) :
    engine.run query rows =
      (firstRows query.grouping (keepRows query.conditions rows)).map fun first =>
        engine.groupRow query (rowsOf query.grouping (groupKey query.grouping first)
          (keepRows query.conditions rows)) := by
  rw [engine.run_of_grouping query grouped]
  simp only [distinctKeys_eq_map_firstRows, List.map_map]
  rfl

/-- The order in which a query lists things does not matter to its rows. Two queries that
list the same conditions and the same grouping fields, in any order and however often, and
the same aggregations, in any order if their columns are pairwise distinct, give the same
rows in the same order. -/
theorem run_eq_of_rearranges {query other : Query} (rearranged : query.Rearranges other)
    (rows : List Row) : engine.run query rows = engine.run other rows := by
  have kept := rearranged.keepRows_eq rows
  have sameEmpty := rearranged.isEmpty_eq
  have sameGrouped := Query.Rearranges.isEmpty_eq_of_mem rearranged.grouping
  cases asks : query.isEmpty with
  | true => rw [run, run, ← sameEmpty, asks, if_pos rfl, if_pos rfl]
  | false =>
    cases ungrouped : query.grouping.isEmpty with
    | true =>
      rw [engine.run_of_ungrouped asks ungrouped,
        engine.run_of_ungrouped (sameEmpty ▸ asks) (sameGrouped ▸ ungrouped), kept]
    | false =>
      have grouped : query.grouping ≠ [] := by simpa using ungrouped
      have otherGrouped : other.grouping ≠ [] := by
        rw [sameGrouped] at ungrouped
        simpa using ungrouped
      rw [engine.run_eq_map_firstRows grouped, engine.run_eq_map_firstRows otherGrouped, kept,
        firstRows_congr rearranged.grouping]
      refine List.map_congr_left fun first _ => ?_
      rw [rowsOf_congr rearranged.grouping, rearranged.groupRow_eq]

/-- Columns that overwrite a grouping field and the identifying field are no exception,
nor are grouping fields with the same texts the other way round. -/
theorem run_eq_of_rearranges_overwriting :
    let query : Query := {
      aggregations := [⟨.sum, "n", "region"⟩, ⟨.count, "*", "id"⟩, ⟨.maximum, "n", "most"⟩]
      conditions := [⟨"n", .greater, "0"⟩, ⟨"region", .like, "%t"⟩]
      grouping := ["region", "town"] }
    let other : Query := {
      aggregations := [⟨.maximum, "n", "most"⟩, ⟨.sum, "n", "region"⟩, ⟨.count, "*", "id"⟩]
      conditions := [⟨"region", .like, "%t"⟩, ⟨"n", .greater, "0"⟩, ⟨"region", .like, "%t"⟩]
      grouping := ["town", "region", "town"] }
    let row (id region town n : String) : Row :=
      .ofList [("id", .text id), ("region", .text region), ("town", .text town), ("n", .text n)]
    let rows : List Row := [row "1" "East" "West" "5", row "2" "West" "East" "7",
      row "3" "North" "West" "8", row "4" "East" "West" "2", row "5" "West" "East" "-1",
      row "6" "East" "East" "3"]
    query.Rearranges other ∧ Engine.run {} query rows = Engine.run {} other rows ∧
      (Engine.run {} other rows).map (fun row => (row.get? "region").map Cell.shown) =
        [some "7", some "7", some "3"] := by
  intro query other row rows
  have rearranged : query.Rearranges other := {
    fields := rfl
    table := rfl
    conditions := fun condition => by
      simp only [query, other, List.mem_cons, List.not_mem_nil, or_false]
      tauto
    grouping := fun field => by
      simp only [query, other, List.mem_cons, List.not_mem_nil, or_false]
      tauto
    aggregations := .inr (by decide) }
  exact ⟨rearranged, run_eq_of_rearranges {} rearranged rows, by decide +kernel⟩

end Engine

end MetricQuery
