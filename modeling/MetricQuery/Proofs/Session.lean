import MetricQuery.Proofs.Engine
import MetricQuery.Proofs.Selection.RoundTrip
import MetricQuery.Proofs.Text.Lowercase
import MetricQuery.Session

/-!
# Sessions compute what is selected

A session never evaluates its selection. It keeps a query text in step with the
selection and runs the text. As long as the text is only ever written by the
session itself, the two ways agree: the text is read back as the query of the
selection, it names the table that is selected, and it stands for no statement
exactly if nothing is selected.

The invariant is that the text is the statement of the selection and that the
selection is one whose statement is read back. Every action that builds a
selection keeps it, so it holds after every sequence of such actions.
-/

namespace MetricQuery

/-- The functions that are known. -/
def AggregateFunction.known : List AggregateFunction := [.sum, .count, .average, .minimum, .maximum]

/-- A known function is read back from its name. -/
theorem AggregateFunction.isReadable_of_known {function : AggregateFunction}
    (known : function ∈ AggregateFunction.known) : function.IsReadable := by
  cases function with
  | other name => simp [AggregateFunction.known] at known
  | _ => trivial

/-- Whether an action builds a selection or looks at its results: it chooses a
known function if it chooses one, adds no value with a substitute character, and
neither edits the query text nor loads a saved one. -/
def Action.IsBuilding : Action → Prop
  | .selectFunction function => function ∈ AggregateFunction.known
  | .addFilter filter => '\x1a' ∉ filter.value.toList
  | .editQuery _ | .loadSaved _ => False
  | _ => True

instance : DecidablePred Action.IsBuilding
  | .selectFunction function => inferInstanceAs (Decidable (function ∈ AggregateFunction.known))
  | .addFilter filter => inferInstanceAs (Decidable ('\x1a' ∉ filter.value.toList))
  | .editQuery _ | .loadSaved _ => inferInstanceAs (Decidable False)
  | .selectTable _ | .toggleMetric _ | .toggleDimension _ | .removeFilter _ | .clearFilters
  | .execute | .setPage _ => inferInstanceAs (Decidable True)

/-- Whether an action keeps the query text one that is read back: it chooses a
function that is read back if it chooses one, adds no value with a substitute
character, and neither edits the query text nor loads a saved one. -/
def Action.KeepsStep : Action → Prop
  | .selectFunction function => function.IsReadable
  | .addFilter filter => '\x1a' ∉ filter.value.toList
  | .editQuery _ | .loadSaved _ => False
  | _ => True

instance : DecidablePred Action.KeepsStep
  | .selectFunction function => inferInstanceAs (Decidable function.IsReadable)
  | .addFilter filter => inferInstanceAs (Decidable ('\x1a' ∉ filter.value.toList))
  | .editQuery _ | .loadSaved _ => inferInstanceAs (Decidable False)
  | .selectTable _ | .toggleMetric _ | .toggleDimension _ | .removeFilter _ | .clearFilters
  | .execute | .setPage _ => inferInstanceAs (Decidable True)

/-- An action that builds a selection with known functions keeps the text readable. -/
theorem Action.IsBuilding.keepsStep {action : Action} (building : action.IsBuilding) :
    action.KeepsStep := by
  cases action with
  | selectFunction function => exact AggregateFunction.isReadable_of_known building
  | _ => exact building

namespace Session

/-- Whether the query text of a session is in step with its selection. -/
structure InStep (session : Session) : Prop where
  /-- The text is the statement of the selection. -/
  query : session.query = session.selection.statement
  /-- The table is in lower case. -/
  table : Text.lowered session.selection.table = session.selection.table
  /-- The function is read back. -/
  function : session.selection.function.IsReadable
  /-- No value has a substitute character. -/
  filters : ∀ filter ∈ session.selection.filters, '\x1a' ∉ filter.value.toList

/-- A session starts in step. -/
theorem inStep_initial : initial.InStep where
  query := rfl
  table := by decide +kernel
  function := trivial
  filters := nofun

/-- A session is in step after another selection was made, if its statement is read back. -/
theorem inStep_reselect (session : Session) {selection : Selection}
    (table : Text.lowered selection.table = selection.table)
    (function : selection.function.IsReadable)
    (filters : ∀ filter ∈ selection.filters, '\x1a' ∉ filter.value.toList) :
    (session.reselect selection).InStep :=
  ⟨rfl, table, function, filters⟩

/-- An action that keeps the text readable keeps a session in step. -/
theorem InStep.apply {session : Session} (inStep : session.InStep) {action : Action}
    (keeping : action.KeepsStep) (dataset : Dataset) (engine : Engine) :
    (session.apply action dataset engine).InStep := by
  obtain ⟨query, table, function, filters⟩ := inStep
  cases action with
  | selectTable name =>
    exact inStep_reselect _ (Text.lowered_lowered name) function nofun
  | selectFunction chosen => exact inStep_reselect _ table keeping filters
  | toggleMetric metric => exact inStep_reselect _ table function filters
  | toggleDimension dimension => exact inStep_reselect _ table function filters
  | addFilter filter =>
    refine inStep_reselect _ table function ?_
    intro other member
    rcases List.mem_append.mp member with before | added
    · exact filters other before
    · rw [List.mem_singleton.mp added]
      exact keeping
  | removeFilter index =>
    by_cases present : index < session.selection.filters.length
    · rw [Session.apply]
      simp only [present, if_true]
      exact inStep_reselect _ table function
        fun other member => filters other (List.mem_of_mem_eraseIdx member)
    · rw [Session.apply]
      simp only [present, if_false]
      exact ⟨query, table, function, filters⟩
  | clearFilters => exact inStep_reselect _ table function nofun
  | editQuery text => exact keeping.elim
  | loadSaved saved => exact keeping.elim
  | execute => exact ⟨query, table, function, filters⟩
  | setPage page => exact ⟨query, table, function, filters⟩

/-- Actions that build a selection keep a session in step. -/
theorem InStep.applyAll {session : Session} (inStep : session.InStep) {actions : List Action}
    (building : ∀ action ∈ actions, action.IsBuilding) (dataset : Dataset) (engine : Engine) :
    (session.applyAll actions dataset engine).InStep := by
  induction actions generalizing session with
  | nil => exact inStep
  | cons action later inductionHypothesis =>
    obtain ⟨here, behind⟩ := List.forall_mem_cons.mp building
    exact inductionHypothesis (inStep.apply here.keepsStep dataset engine) behind

end Session

/-- What a selection asks for in a dataset, as an engine would compute it. -/
def Selection.evaluate (selection : Selection) (engine : Engine) (dataset : Dataset) : List Row :=
  if selection.isBare then []
  else
    match dataset.rows? selection.table with
    | some rows => engine.evaluate selection.query rows
    | none => []

/-- The query of a selection gives the result rows of its metrics. -/
theorem Engine.groupRow_query (engine : Engine) (selection : Selection) (rows : List Row) :
    engine.groupRow selection.query rows =
      selection.metrics.foldl
        (fun row metric =>
          row.insert metric.value
            (selection.function.over engine.seed (rows.map (engine.fieldCell metric.value))))
        ((rows.head?.getD .empty).restrict
          ("id" :: selection.dimensions.map Dimension.value)) := by
  rw [Engine.groupRow, Selection.query, List.foldl_map]
  rfl

/-- The query of a selection gives rows as they are, or one row for each group. -/
theorem Engine.evaluate_query (engine : Engine) (selection : Selection) (rows : List Row) :
    engine.evaluate selection.query rows =
      let kept := rows.filter fun row => selection.filters.all fun filter => filter.holds row
      let dimensions := selection.dimensions.map Dimension.value
      if selection.dimensions = [] then kept
      else
        (distinctKeys dimensions kept).map fun key =>
          engine.groupRow selection.query (rowsOf dimensions key kept) := by
  have asks : selection.query.isEmpty = false := rfl
  have ungrouped : selection.query.grouping = [] ↔ selection.dimensions = [] := List.map_eq_nil_iff
  rw [Engine.evaluate, asks, if_neg Bool.false_ne_true]
  simp only [ungrouped]
  rfl

namespace Session

/-- A session in step gives the rows that its selection asks for. -/
theorem InStep.answer_eq_evaluate {session : Session} (inStep : session.InStep) (dataset : Dataset)
    (engine : Engine) :
    session.answer dataset engine = session.selection.evaluate engine dataset := by
  have readable := inStep.function
  rw [answer, Selection.evaluate, inStep.query, Selection.isSentinel_statement readable]
  cases bare : session.selection.isBare with
  | true => rfl
  | false =>
    have table : session.sourceTable session.selection.query = session.selection.table := by
      rw [sourceTable]
      split
      · rfl
      · exact inStep.table
    simp only [Bool.false_eq_true, if_false,
      Selection.ofText_statement_eq bare readable inStep.filters, table]
    cases dataset.rows? session.selection.table with
    | none => rfl
    | some rows => exact engine.run_eq_evaluate session.selection.query rows

/-- Running the query text of a session, after any actions that built a selection,
gives what the selection asks for. Without a metric and a dimension there are no
rows, and neither are there any in a table that does not exist. Without a
dimension the rows that satisfy all filters are given as they are. Otherwise each
list of texts of the dimensions, in the order in which these lists first occur,
gives one row: the identifying field and the dimensions of the first row with
these texts, and under the name of each metric the value of the selected function
over the cells of all rows with these texts. -/
theorem results_of_execute (actions : List Action)
    (building : ∀ action ∈ actions, action.IsBuilding) (dataset : Dataset) (engine : Engine) :
    let session := initial.applyAll actions dataset engine
    let selection := session.selection
    (session.apply .execute dataset engine).results =
      if selection.metrics = [] ∧ selection.dimensions = [] then []
      else
        match dataset.rows? selection.table with
        | none => []
        | some rows =>
            let kept := rows.filter fun row => selection.filters.all fun filter => filter.holds row
            let dimensions := selection.dimensions.map Dimension.value
            if selection.dimensions = [] then kept
            else
              let texts (row : Row) : List String := dimensions.map fun dimension =>
                match row.get? dimension with
                | some cell => cell.shown
                | none => ""
              (kept.map texts).eraseDups.map fun key =>
                let members := kept.filter fun row => texts row = key
                selection.metrics.foldl
                  (fun row metric =>
                    row.insert metric.value
                      (selection.function.over engine.seed
                        (members.map (engine.fieldCell metric.value))))
                  ((members.head?.getD .empty).restrict ("id" :: dimensions)) := by
  intro session selection
  have inStep : session.InStep := inStep_initial.applyAll building dataset engine
  have answered : (session.apply .execute dataset engine).results =
      selection.evaluate engine dataset := inStep.answer_eq_evaluate dataset engine
  have bare : selection.isBare = true ↔ selection.metrics = [] ∧ selection.dimensions = [] := by
    simp [Selection.isBare]
  have key : groupKey (selection.dimensions.map Dimension.value) =
      fun row => (selection.dimensions.map Dimension.value).map fun dimension =>
        match row.get? dimension with
        | some cell => cell.shown
        | none => "" :=
    groupKey_eq _
  rw [answered, Selection.evaluate]
  simp only [bare]
  split
  · rfl
  · cases dataset.rows? selection.table with
    | none => rfl
    | some rows =>
      simp only [Engine.evaluate_query, Engine.groupRow_query, distinctKeys, rowsOf, key]

/-- Sums by the selected dimension, after a filter was added in error and removed. Numbers and
texts of numbers are added under the name that replaced the metric or under its own, and a
group without a number has no sum. -/
theorem results_of_execute_by_region :
    let number (digits : Nat) (place : Int) := Cell.number (Decimal.ofDecimal false digits place)
    let dataset := Dataset.ofList [("Orders", [
      .ofList [("id", .text "7"), ("region", .text "North"), ("revenue", number 4 0),
        ("sales", number 9 0)],
      .ofList [("id", .text "8"), ("region", .text "East"), ("revenue", number 1 0)],
      .ofList [("id", .text "9"), ("region", .text "South"), ("revenue", .null)],
      .ofList [("id", .text "3"), ("region", .text "North"), ("sales", .text "2.5")]])]
    let session := initial.applyAll [
      .selectTable "ORDERS", .toggleMetric ⟨"sales", "", .number⟩, .selectFunction .maximum,
      .addFilter ⟨"region", .like, "%o%"⟩, .execute, .addFilter ⟨"id", .equal, "it's"⟩,
      .toggleDimension ⟨"region", "", none⟩, .removeFilter 1, .selectFunction .sum,
      .setPage 4] dataset {}
    (session.apply .execute dataset {}).results = [
      .ofList [("id", .text "7"), ("region", .text "North"), ("sales", number 65 (-1))],
      .ofList [("id", .text "9"), ("region", .text "South"), ("sales", .null)]] := by
  intro number dataset session
  exact (results_of_execute _ (by decide) dataset {}).trans (by decide +kernel)

end Session

end MetricQuery
