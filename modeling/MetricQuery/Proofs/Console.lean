import MetricQuery.Console
import MetricQuery.Proofs.Saved
import MetricQuery.Proofs.Session.Steps
import MetricQuery.Proofs.Session.Uniqueness
import MetricQuery.Proofs.Text.Lowercase

/-!
# What lines lead to

A line does one of a few things to a console: nothing, one action in its session,
one action and a run of the text, a query added to the saved ones, or one of them
dropped. Of the actions that could select what the catalog does not list, three
are left, and each takes what it selects from somewhere: a metric and a dimension
from the table that the catalog finds under the selected name, and a selection as
a whole from a saved query.

So what is selected stays on offer only if every saved query is on offer as well,
its lists together with its table. A session takes over the table of a saved query
in lower case, and it finds the same table because the name was in lower case
when the query was saved.
-/

namespace MetricQuery

/-- Whether a selection is one that a catalog offers. -/
structure Catalog.Offers (catalog : Catalog) (table : String) (metrics : List Metric)
    (dimensions : List Dimension) : Prop where
  /-- The name of the table is in lower case. -/
  lowered : Text.lowered table = table
  /-- The catalog lists the metrics for the table. -/
  listedMetrics : ∀ metric ∈ metrics,
    ∃ found, catalog.table? table = some found ∧ metric ∈ found.metrics
  /-- The catalog lists the dimensions for the table. -/
  listedDimensions : ∀ dimension ∈ dimensions,
    ∃ found, catalog.table? table = some found ∧ dimension ∈ found.dimensions
  /-- No field is selected twice. -/
  distinct : HasDistinctFields metrics dimensions

/-- Nothing is selected of a table that was just chosen. -/
theorem Catalog.offers_nil (catalog : Catalog) (name : String) :
    catalog.Offers (Text.lowered name) [] [] where
  lowered := Text.lowered_lowered name
  listedMetrics := by simp
  listedDimensions := by simp
  distinct := ⟨.nil, .nil⟩

/-- What is left after one more choice was there before, or is the choice. -/
theorem mem_toggle {α : Type} {key : α → String} {item member : α} {items : List α}
    (present : member ∈ toggle key item items) : member ∈ items ∨ member = item := by
  rw [toggle] at present
  split at present
  case isTrue => exact .inl (List.mem_of_mem_eraseP present)
  case isFalse => simpa using present

namespace Console

variable {console next : Console}

/-! ## One line -/

/-- Whether a line can lead to an action: it selects only metrics and dimensions of the
selected table, and loads only queries that were saved. -/
def Allows (console : Console) : Action → Prop
  | .toggleMetric metric => ∃ found,
      console.catalog.table? console.session.selection.table = some found ∧ metric ∈ found.metrics
  | .toggleDimension dimension => ∃ found,
      console.catalog.table? console.session.selection.table = some found ∧
        dimension ∈ found.dimensions
  | .loadSaved record => record ∈ console.saved.records
  | _ => True

/-- What a line can do to a console. -/
inductive Leads (console : Console) : Console → Prop where
  /-- The line is only answered. -/
  | stays : Leads console console
  /-- The session takes an action. -/
  | acts {action : Action} (allowed : console.Allows action) : Leads console (console.perform action)
  /-- The session takes an action and runs its text. -/
  | runs {action : Action} (allowed : console.Allows action) :
      Leads console ((console.perform action).perform .execute)
  /-- The query of the session is saved. -/
  | saves {moment : Instant} {record : SavedQuery} {more : SavedQueries}
      (made : console.session.record? moment = some record)
      (added : console.saved.save record = .added more) :
      Leads console { console with saved := more }
  /-- A saved query is dropped. -/
  | drops (id : Int) : Leads console { console with saved := console.saved.remove id }

/-- A metric is selected as the table of the session lists it. -/
theorem toggleMetric_leads (field : String) : console.Leads (console.toggleMetric field).1 := by
  rw [toggleMetric]
  split
  case h_1 metric found =>
    obtain ⟨table, here, listed⟩ := Option.bind_eq_some_iff.mp found
    exact .acts ⟨table, here, List.mem_of_find?_eq_some listed⟩
  case h_2 => exact .stays

/-- A dimension is selected as the table of the session lists it. -/
theorem toggleDimension_leads (field : String) :
    console.Leads (console.toggleDimension field).1 := by
  rw [toggleDimension]
  split
  case h_1 dimension found =>
    obtain ⟨table, here, listed⟩ := Option.bind_eq_some_iff.mp found
    exact .acts ⟨table, here, List.mem_of_find?_eq_some listed⟩
  case h_2 => exact .stays

/-- A query is saved as the session makes it. -/
theorem saveQuery_leads (moment : Instant) : console.Leads (console.saveQuery moment).1 := by
  rw [saveQuery]
  split
  case h_1 => exact .stays
  case h_2 record made =>
    split
    case h_1 more added => exact .saves made added
    case h_2 => exact .stays
    case h_3 => exact .stays

/-- A query that is loaded was saved. -/
theorem runSaved_leads (argument : String) : console.Leads (console.runSaved argument).1 := by
  rw [runSaved]
  split
  case h_1 record found =>
    obtain ⟨id, _, owned⟩ := Option.bind_eq_some_iff.mp found
    have member : record ∈ console.saved.records := List.mem_of_find?_eq_some owned
    exact .runs member
  case h_2 => exact .stays

/-- The session chooses a table that the catalog finds. -/
theorem chooseTable_leads (name : String) : console.Leads (console.chooseTable name).1 := by
  rw [chooseTable]
  split
  · exact .acts trivial
  · exact .stays

/-- A filter is added as the argument writes it. -/
theorem addFilter_leads (argument : String) : console.Leads (console.addFilter argument).1 := by
  rw [addFilter]
  split
  · exact .acts trivial
  · exact .stays

/-- A page is shown as the argument numbers it. -/
theorem showPage_leads (argument : String) : console.Leads (console.showPage argument).1 := by
  rw [showPage]
  split
  · exact .acts trivial
  · exact .stays

/-- Listing the saved queries is an answer only. -/
theorem listSaved_leads : console.Leads console.listSaved.1 := by
  rw [listSaved]
  split <;> exact .stays

/-- A saved query is dropped as the argument numbers it. -/
theorem deleteSaved_leads (argument : String) : console.Leads (console.deleteSaved argument).1 := by
  rw [deleteSaved]
  split
  · exact .drops _
  · exact .stays

/-- Each command does one of the things that a line can do. -/
theorem command_leads (moment : Instant) (name argument : String) :
    console.Leads (console.command moment name argument).1 := by
  unfold command
  -- The commands in their order, of which the first has three names.
  split
  · exact .stays
  · exact .stays
  · exact .stays
  · exact .stays
  · exact .stays
  · exact chooseTable_leads argument
  · exact .acts trivial
  · exact toggleMetric_leads argument
  · exact toggleDimension_leads argument
  · exact addFilter_leads argument
  · exact .acts trivial
  · exact .stays
  · exact .acts trivial
  · exact showPage_leads argument
  · exact saveQuery_leads moment
  · exact listSaved_leads
  · exact runSaved_leads argument
  · exact deleteSaved_leads argument
  · exact .stays

/-- Each line does one of the things that a line can do. -/
theorem handle_leads (moment : Instant) (text : String) :
    console.Leads (console.handle moment text).1 := by
  rw [handle]
  split
  · exact .runs trivial
  · exact command_leads moment _ _

/-- No line changes the catalog. -/
theorem Leads.catalog (leads : console.Leads next) : next.catalog = console.catalog := by
  cases leads <;> rfl

/-! ## What a line preserves -/

/-- Whether the session and every saved query are on offer, and the page exists. -/
structure IsOffered (console : Console) : Prop where
  /-- The session selects what the catalog offers. -/
  session : console.catalog.Offers console.session.selection.table
    console.session.selection.metrics console.session.selection.dimensions
  /-- Every saved query was made of what the catalog offers. -/
  saved : ∀ record ∈ console.saved.records,
    console.catalog.Offers record.table record.metrics record.dimensions
  /-- The page of the session exists. -/
  page : console.session.HasPage

/-- A console starts with nothing selected, nothing saved, and the first page. -/
theorem isOffered_initial (catalog : Catalog) : IsOffered { catalog := catalog } where
  session := catalog.offers_nil defaultTable
  saved := by simp
  page := Session.hasPage_initial

/-- An action that a line can lead to selects what the catalog offers. -/
theorem IsOffered.perform (offered : console.IsOffered) {action : Action}
    (allowed : console.Allows action) : (console.perform action).IsOffered := by
  constructor
  case saved => exact offered.saved
  case page => exact offered.page.apply _ _ action
  case session =>
    obtain ⟨lowered, metrics, dimensions, distinct⟩ := offered.session
    cases action with
    | selectTable name => exact console.catalog.offers_nil name
    | toggleMetric metric =>
      refine ⟨lowered, ?_, dimensions, nodup_toggle distinct.metrics metric, distinct.dimensions⟩
      intro member present
      rcases mem_toggle present with before | rfl
      · exact metrics member before
      · exact allowed
    | toggleDimension dimension =>
      refine ⟨lowered, metrics, ?_, distinct.metrics, nodup_toggle distinct.dimensions dimension⟩
      intro member present
      rcases mem_toggle present with before | rfl
      · exact dimensions member before
      · exact allowed
    | removeFilter index =>
      rw [Console.perform, Session.apply]
      split <;> exact ⟨lowered, metrics, dimensions, distinct⟩
    | loadSaved record =>
      have kept : console.catalog.Offers record.table record.metrics record.dimensions :=
        offered.saved record allowed
      have same : (console.perform (.loadSaved record)).session.selection.table = record.table :=
        kept.lowered
      rw [same]
      exact kept
    | _ => exact ⟨lowered, metrics, dimensions, distinct⟩

/-- A query is saved with the selection of the session. -/
theorem IsOffered.record (offered : console.IsOffered) {moment : Instant} {record : SavedQuery}
    (made : console.session.record? moment = some record) :
    console.catalog.Offers record.table record.metrics record.dimensions := by
  rw [Session.record?] at made
  split at made
  · cases made
  · obtain rfl := Option.some.inj made
    exact offered.session

/-- A collection holds what it held before and the query that was added. -/
theorem mem_of_save {saved more : SavedQueries} {record kept : SavedQuery}
    (added : saved.save record = .added more) (member : kept ∈ more.records) :
    kept ∈ saved.records ∨ ∃ id, kept = { record with id := id } := by
  obtain ⟨_, free, _, rfl⟩ := SavedQueries.save_eq_added added
  rcases List.mem_append.mp member with before | new
  · exact .inl before
  · exact .inr ⟨free, List.mem_singleton.mp new⟩

/-- Whatever a line does, the session and every saved query stay on offer. -/
theorem IsOffered.leads (offered : console.IsOffered) (leads : console.Leads next) :
    next.IsOffered := by
  cases leads with
  | stays => exact offered
  | acts allowed => exact offered.perform allowed
  | runs allowed => exact (offered.perform allowed).perform trivial
  | saves made added =>
    refine ⟨offered.session, ?_, offered.page⟩
    intro kept member
    rcases mem_of_save added member with before | ⟨id, rfl⟩
    · exact offered.saved kept before
    · exact (offered.record made :)
  | drops id =>
    refine ⟨offered.session, ?_, offered.page⟩
    intro kept member
    exact offered.saved kept (List.mem_of_mem_eraseP member)

/-! ## Lines -/

/-- The console after lines, each at its own moment. -/
def handleAll (console : Console) (lines : List (Instant × String)) : Console :=
  lines.foldl (fun console line => (console.handle line.1 line.2).1) console

/-- After any lines the session and every saved query are on offer in the same catalog. -/
theorem IsOffered.handleAll (offered : console.IsOffered) (lines : List (Instant × String)) :
    (console.handleAll lines).IsOffered ∧
      (console.handleAll lines).catalog = console.catalog := by
  induction lines generalizing console with
  | nil => exact ⟨offered, rfl⟩
  | cons line later inductionHypothesis =>
    have leads : console.Leads (console.handle line.1 line.2).1 := handle_leads line.1 line.2
    obtain ⟨after, catalog⟩ := inductionHypothesis (offered.leads leads)
    exact ⟨after, catalog.trans leads.catalog⟩

/-- After any lines, at any moments, to a console that starts with any catalog: each
selected metric is one that the catalog lists for the table that it finds under the
selected name, and each selected dimension likewise; no two selected metrics and no two
selected dimensions stand for the same field; and the page is one of those that exist,
or the first one. -/
theorem selection_offered_after_lines (catalog : Catalog) (lines : List (Instant × String)) :
    let session := (handleAll { catalog := catalog } lines).session
    (∀ metric ∈ session.selection.metrics, ∃ table,
      catalog.table? session.selection.table = some table ∧ metric ∈ table.metrics) ∧
    (∀ dimension ∈ session.selection.dimensions, ∃ table,
      catalog.table? session.selection.table = some table ∧ dimension ∈ table.dimensions) ∧
    (session.selection.metrics.map Metric.value).Nodup ∧
    (session.selection.dimensions.map Dimension.value).Nodup ∧
    1 ≤ session.page ∧ session.page ≤ max 1 session.totalPages := by
  intro session
  obtain ⟨offered, same⟩ := (isOffered_initial catalog).handleAll lines
  have offers : catalog.Offers session.selection.table session.selection.metrics
      session.selection.dimensions := by
    have here := offered.session
    rwa [same] at here
  refine ⟨offers.listedMetrics, offers.listedDimensions, ?_, ?_, ?_, ?_⟩
  · exact offers.distinct.metrics
  · exact offers.distinct.dimensions
  · exact offered.page.least
  · exact offered.page.most

end Console

end MetricQuery
