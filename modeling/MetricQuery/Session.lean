import MetricQuery.Pages
import MetricQuery.Saved

/-!
# Sessions

A session holds what one user has selected, the query text that came of it, the
rows of the last run, and the page that is shown. Every change of the selection
writes the query text anew. Editing the text leaves the selection alone, and
loading a saved query takes over its text as it is, with the filters that its
text states.

Running the text shows its first page. A text that stands for no statement, or
that names a table which does not exist, gives no rows.
-/

namespace MetricQuery

/-- What a user can do in a session. -/
inductive Action where
  /-- Choose a table, which drops the metrics, dimensions and filters. -/
  | selectTable (name : String)
  | selectFunction (function : AggregateFunction)
  /-- Select a metric, or drop it if its field is selected. -/
  | toggleMetric (metric : Metric)
  /-- Select a dimension, or drop it if its field is selected. -/
  | toggleDimension (dimension : Dimension)
  | addFilter (filter : Condition)
  /-- Drop the filter at a position, if there is one. -/
  | removeFilter (index : Nat)
  | clearFilters
  /-- Replace the query text. -/
  | editQuery (query : String)
  | loadSaved (saved : SavedQuery)
  /-- Run the query text. -/
  | execute
  /-- Show a page, or the nearest one that exists. -/
  | setPage (page : Nat)
  deriving DecidableEq, Repr

/-- The state of a session. -/
structure Session where
  /-- What is selected. -/
  selection : Selection
  /-- The text of the query. -/
  query : String
  /-- The rows of the last run. -/
  results : List Row
  /-- The page that is shown, counted from one. -/
  page : Nat
  deriving DecidableEq

/-- Drop the first item with the same key, or add the item at the end if there is none. -/
def toggle {α : Type} (key : α → String) (item : α) (items : List α) : List α :=
  if items.any fun present => key present = key item then
    items.eraseP fun present => key present = key item
  else items ++ [item]

namespace Session

/-- The session with another selection, and the statement of that selection. -/
def reselect (session : Session) (selection : Selection) : Session :=
  { session with selection := selection, query := selection.statement }

/-- The session at its start. -/
def initial : Session :=
  let selection : Selection := { table := defaultTable, function := .sum }
  ⟨selection, selection.statement, [], 1⟩

/-- The number of pages of the last run. -/
def totalPages (session : Session) : Nat := pageCount session.results.length rowsPerPage

/-- The rows on the page that is shown. -/
def pageRows (session : Session) : List Row := pageOf session.results session.page rowsPerPage

/-- The table that the query text reads: the one that it names, in lower case,
or the selected one. -/
def sourceTable (session : Session) (query : Query) : String :=
  if query.table.isEmpty then session.selection.table else Text.lowered query.table

/-- The rows that the query text gives. -/
def answer (session : Session) (dataset : Dataset) (engine : Engine) : List Row :=
  if isSentinel session.query then []
  else
    let query := Query.ofText session.query
    match dataset.rows? (session.sourceTable query) with
    | some rows => engine.run query rows
    | none => []

/-- The session after an action. -/
def apply (session : Session) (action : Action) (dataset : Dataset) (engine : Engine) : Session :=
  let selection := session.selection
  match action with
  | .selectTable name =>
      session.reselect { table := Text.lowered name, function := selection.function }
  | .selectFunction function => session.reselect { selection with function := function }
  | .toggleMetric metric =>
      session.reselect { selection with metrics := toggle Metric.value metric selection.metrics }
  | .toggleDimension dimension =>
      session.reselect
        { selection with
          dimensions := toggle Dimension.value dimension selection.dimensions }
  | .addFilter filter => session.reselect { selection with filters := selection.filters ++ [filter] }
  | .removeFilter index =>
      if index < selection.filters.length then
        session.reselect { selection with filters := selection.filters.eraseIdx index }
      else session
  | .clearFilters => session.reselect { selection with filters := [] }
  | .editQuery query => { session with query := query }
  | .loadSaved saved =>
      { session with
        selection := {
          table := Text.lowered saved.table
          function := .ofName saved.function
          metrics := saved.metrics
          dimensions := saved.dimensions
          filters := (Query.ofText saved.query).conditions }
        query := saved.query }
  | .execute => { session with page := 1, results := session.answer dataset engine }
  | .setPage page => { session with page := max 1 (min page (max session.totalPages 1)) }

/-- The session after several actions. -/
def applyAll (session : Session) (actions : List Action) (dataset : Dataset) (engine : Engine) :
    Session :=
  actions.foldl (fun session action => session.apply action dataset engine) session

/-- What would be saved of a session at a moment, if there is a query to save. -/
def record? (session : Session) (moment : Instant) : Option SavedQuery :=
  if isSentinel session.query then none
  else
    some (.make session.query session.selection.metrics session.selection.dimensions
      session.selection.table session.selection.function.shown moment)

end Session

end MetricQuery
