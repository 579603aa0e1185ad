import MetricQuery.Proofs.Saved.Json
import MetricQuery.Session

/-!
# What is selected twice

A metric or a dimension stands for its field. Selecting one whose field is selected
drops it, so the actions that build a selection never select a field twice. Loading a
saved query takes over its lists as they are, and a saved query may have been written
by hand. So the fields of a selection are distinct if those of the saved query are that
was loaded last, unless another table was chosen since.

The condition cannot be left out: a collection is read with a query that has a metric
twice, and loading the query selects the metric twice.
-/

namespace MetricQuery

/-- Dropping or adding an item keeps keys distinct. -/
theorem nodup_toggle {α : Type} {key : α → String} {items : List α} (distinct : (items.map key).Nodup)
    (item : α) : ((toggle key item items).map key).Nodup := by
  rw [toggle]
  split
  case isTrue present => exact distinct.sublist (List.eraseP_sublist.map key)
  case isFalse absent =>
    have new : key item ∉ items.map key := by
      simpa [List.any_eq_true] using absent
    exact nodup_map_concat distinct new

/-- Whether no two metrics, and no two dimensions, stand for the same field. -/
structure HasDistinctFields (metrics : List Metric) (dimensions : List Dimension) : Prop where
  /-- The fields of the metrics are distinct. -/
  metrics : (metrics.map Metric.value).Nodup
  /-- The fields of the dimensions are distinct. -/
  dimensions : (dimensions.map Dimension.value).Nodup

/-- The saved query that a selection goes back to after one more action. -/
def Action.origin? (origin : Option SavedQuery) : Action → Option SavedQuery
  | .loadSaved saved => some saved
  | .selectTable _ => none
  | _ => origin

/-- The saved query that was loaded last, unless another table was chosen since. -/
def lastLoaded? (actions : List Action) : Option SavedQuery := actions.foldl Action.origin? none

namespace Session

variable {session : Session} {origin : Option SavedQuery}

/-- Whether the fields of a session are distinct, provided that those of the saved query
are that its selection goes back to. -/
def IsUniqueFrom (origin : Option SavedQuery) (session : Session) : Prop :=
  (∀ saved ∈ origin, HasDistinctFields saved.metrics saved.dimensions) →
    HasDistinctFields session.selection.metrics session.selection.dimensions

/-- Every action keeps fields distinct as far as those of the loaded query are. -/
theorem IsUniqueFrom.apply (unique : session.IsUniqueFrom origin) (action : Action)
    (dataset : Dataset) (engine : Engine) :
    (session.apply action dataset engine).IsUniqueFrom (action.origin? origin) := by
  intro loaded
  cases action with
  | selectTable name => exact ⟨.nil, .nil⟩
  | loadSaved saved => exact loaded saved rfl
  | toggleMetric metric =>
    have before := unique loaded
    exact ⟨nodup_toggle before.metrics metric, before.dimensions⟩
  | toggleDimension dimension =>
    have before := unique loaded
    exact ⟨before.metrics, nodup_toggle before.dimensions dimension⟩
  | removeFilter index =>
    have before := unique loaded
    rw [Session.apply]
    split <;> exact before
  | _ => exact unique loaded

/-- Actions keep fields distinct as far as those of the loaded query are. -/
theorem IsUniqueFrom.applyAll (unique : session.IsUniqueFrom origin) (actions : List Action)
    (dataset : Dataset) (engine : Engine) :
    (session.applyAll actions dataset engine).IsUniqueFrom (actions.foldl Action.origin? origin) := by
  induction actions generalizing session origin with
  | nil => exact unique
  | cons action later inductionHypothesis =>
    exact inductionHypothesis (unique.apply action dataset engine)

/-- After any actions from the start, no two selected metrics and no two selected
dimensions stand for the same field, provided that this holds of the saved query that
was loaded last, if one was loaded and no other table chosen since. -/
theorem distinct_fields_after_actions (actions : List Action) (dataset : Dataset) (engine : Engine)
    (loaded : ∀ saved ∈ lastLoaded? actions,
      (saved.metrics.map Metric.value).Nodup ∧ (saved.dimensions.map Dimension.value).Nodup) :
    let session := initial.applyAll actions dataset engine
    (session.selection.metrics.map Metric.value).Nodup ∧
      (session.selection.dimensions.map Dimension.value).Nodup := by
  intro session
  have start : initial.IsUniqueFrom none := fun _ => ⟨.nil, .nil⟩
  have unique := start.applyAll actions dataset engine
  have distinct : HasDistinctFields session.selection.metrics session.selection.dimensions :=
    unique fun saved found => ⟨(loaded saved found).1, (loaded saved found).2⟩
  exact ⟨distinct.metrics, distinct.dimensions⟩

/-- A repeated metric is gone once another query was loaded; selecting its field again
under another name then drops it. -/
theorem distinct_fields_after_loading :
    let net : Metric := ⟨"net", "Net", .currency⟩
    let query : List Metric → SavedQuery := fun metrics =>
      ⟨1, "", metrics, [⟨"region", "", none⟩], "", "orders", "SUM"⟩
    let actions : List Action := [.loadSaved (query [net, net]), .loadSaved (query [net]),
      .toggleMetric ⟨"net", "Result", .number⟩, .toggleMetric ⟨"tax", "Tax", .currency⟩,
      .toggleDimension ⟨"month", "", none⟩]
    let session := initial.applyAll actions (.ofList []) {}
    (∀ saved ∈ lastLoaded? actions,
        (saved.metrics.map Metric.value).Nodup ∧ (saved.dimensions.map Dimension.value).Nodup) ∧
      session.selection.metrics.map Metric.value = ["tax"] ∧
        (session.selection.metrics.map Metric.value).Nodup ∧
          (session.selection.dimensions.map Dimension.value).Nodup := by
  intro net query actions session
  have loaded : ∀ saved ∈ lastLoaded? actions,
      (saved.metrics.map Metric.value).Nodup ∧ (saved.dimensions.map Dimension.value).Nodup := by
    rintro saved ⟨rfl⟩
    exact ⟨by decide, by decide⟩
  have distinct := distinct_fields_after_actions actions (.ofList []) {} loaded
  exact ⟨loaded, by decide +kernel, distinct⟩

/-- A collection of one query with a metric twice is read from its text, and loading the
query selects the metric twice. -/
theorem repeated_metric_loaded :
    let revenue : Metric := ⟨"revenue", "Revenue", .currency⟩
    let record : SavedQuery := {
      id := 1
      query := "SELECT \"id\", SUM(\"revenue\") AS \"revenue\"\nFROM \"sales\""
      metrics := [revenue, revenue]
      dimensions := []
      timestamp := "1970-01-01T00:00:00.001+00:00"
      table := "sales"
      function := "SUM" }
    let session := initial.applyAll [.loadSaved record] (.ofList []) {}
    SavedQueries.ofText (SavedQueries.toText ⟨[record]⟩) = .ok ⟨[record]⟩ ∧
      ¬ (session.selection.metrics.map Metric.value).Nodup := by
  intro revenue record session
  have fit : ∀ other ∈ [record], Word.IsSigned other.id := by decide
  have distinct : SavedQueries.IsDistinct ⟨[record]⟩ := ⟨by decide, by decide⟩
  exact ⟨SavedQueries.ofText_of_isDistinct (SavedQueries.decode_toText fit) distinct, by decide⟩

end Session

end MetricQuery
