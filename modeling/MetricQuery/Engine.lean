import MetricQuery.Accumulator
import MetricQuery.Condition
import MetricQuery.Journal

/-!
# Running queries

A query runs over the rows of one table. Its conditions are applied first.
Without a grouping the rows that are left are the result, as they are, and the
aggregations of the query are not computed. With a grouping, rows whose
grouping fields show the same texts belong to one group, and groups come in the
order of their first rows. The result row of a group holds the first row's `id`
and grouping fields, as far as it has them, and then the result of each
aggregation in its column, where a later aggregation overwrites what stands in
its column.

The groups are built in one pass over the rows, each with the states of its
aggregations. An aggregation reads its field under the name that replaced it,
if there is one, and otherwise under its own name; a row that has neither gives
an empty cell.
-/

namespace MetricQuery

/-- The field that identifies a row. -/
def idField : String := "id"

/-- Field names that were replaced, each with the name that replaced it. -/
abbrev FieldAliases := SortedMap String

namespace FieldAliases

/-- The replacement that the sample data needs. -/
def legacy : FieldAliases := SortedMap.empty.insert "sales" "revenue"

/-- The name that replaced a field, or the field itself. -/
def resolve (aliases : FieldAliases) (field : String) : String :=
  (SortedMap.get? aliases field).getD field

/-- The cell of a field, under the name that replaced it or else under its own. -/
def read (aliases : FieldAliases) (row : Row) (field : String) : Option Cell :=
  (SortedMap.get? row (aliases.resolve field)).or (SortedMap.get? row field)

end FieldAliases

/-- How queries are run: the replaced field names and the counting policy. -/
structure Engine where
  /-- The field names that were replaced. -/
  aliases : FieldAliases := .legacy
  /-- What the first cell of a group counts for. -/
  seed : CountSeed := .one
  deriving DecidableEq

/-- The texts of a row's grouping fields, by which groups are told apart. -/
def groupKey (grouping : List String) (row : Row) : List String :=
  grouping.map fun field => ((row.get? field).map Cell.shown).getD ""

/-- A group key as one text. -/
def keyText (key : List String) : String := String.intercalate "|" key

/-- A group under construction. -/
structure Group where
  /-- What its rows have in common. -/
  key : List String
  /-- The fields that its first row gives to the result. -/
  row : Row
  /-- The states of the query's aggregations, in order. -/
  states : List Accumulator
  deriving DecidableEq

namespace Engine

/-- The cell that an aggregation reads in a row. -/
def source (engine : Engine) (row : Row) (aggregation : Aggregation) : Cell :=
  (engine.aliases.read row aggregation.field).getD .null

/-- Copy a field of a row, if the row has it. -/
def copyField (first result : Row) (field : String) : Row :=
  match first.get? field with
  | some cell => result.insert field cell
  | none => result

/-- The fields that the first row of a group gives to the result. -/
def firstFields (grouping : List String) (first : Row) : Row :=
  grouping.foldl (copyField first) (copyField first .empty idField)

/-- Start the group of a key with its first row. -/
def startGroup (engine : Engine) (query : Query) (key : List String) (row : Row) : Group where
  key := key
  row := firstFields query.grouping row
  states := query.aggregations.map fun aggregation =>
    .start aggregation.function (engine.source row aggregation) engine.seed

/-- Take one more row into a group. -/
def extendGroup (engine : Engine) (query : Query) (row : Row) (group : Group) : Group :=
  { group with
    states := List.zipWith (fun state aggregation => state.apply (engine.source row aggregation))
      group.states query.aggregations }

/-- Take one more row into the groups: into the group of its key if there is one,
and otherwise as the first row of a new one at the end. -/
def addRow (engine : Engine) (query : Query) (key : List String) (row : Row) :
    List Group → List Group
  | [] => [engine.startGroup query key row]
  | group :: later =>
      if group.key = key then engine.extendGroup query row group :: later
      else group :: engine.addRow query key row later

/-- The groups of some rows, in the order of their first rows. -/
def groups (engine : Engine) (query : Query) (rows : List Row) : List Group :=
  rows.foldl (fun groups row => engine.addRow query (groupKey query.grouping row) row groups) []

/-- The result row of a group. -/
def finish (query : Query) (group : Group) : Row :=
  (List.zip query.aggregations group.states).foldl
    (fun row (aggregation, state) => row.insert aggregation.column state.result) group.row

/-- Run a query over the rows of a table. -/
def run (engine : Engine) (query : Query) (rows : List Row) : List Row :=
  if query.isEmpty then []
  else
    let kept := keepRows query.conditions rows
    if query.grouping.isEmpty then kept
    else (engine.groups query kept).map (finish query)

/-- The event of an aggregation whose function is not known. -/
def unknownFunction? (aggregation : Aggregation) : Option Event :=
  match aggregation.function with
  | .other name =>
      some {
        level := .warn
        message := "unknown aggregation function, keeping first value"
        details := [("func", name), ("alias", aggregation.column)] }
  | _ => none

/-- What is noticed while a query runs over the rows of a table. -/
def journal (engine : Engine) (query : Query) (rows : List Row) : List Event :=
  if query.isEmpty then [{ level := .debug, message := "empty query, nothing to execute" }]
  else
    let kept := keepRows query.conditions rows
    let filtered : Event := {
      level := .debug
      message := "applied filters"
      details := [("input", toString rows.length), ("kept", toString kept.length),
        ("conditions", toString query.conditions.length)] }
    if query.grouping.isEmpty then
      if query.aggregations.isEmpty then [filtered]
      else [filtered, { level := .debug, message := "no GROUP BY, aggregations ignored" }]
    else
      let grouped : Event := {
        level := .debug
        message := "grouped rows"
        details := [("groups", toString (engine.groups query kept).length)] }
      [filtered] ++ query.aggregations.filterMap unknownFunction? ++ [grouped]

end Engine

end MetricQuery
