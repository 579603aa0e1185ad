import MetricQuery.Session

/-!
# What actions change

An action has a part in the selection, the query text, the rows, or the page. Only
running the text gives other rows. The page is then the first one, and the page that
is asked for is moved into the range of those that exist, so a page is empty only if
there are no rows at all.

A text goes its own way in two cases only: it was edited, or it came with a saved
query. So what counts is the last action that changed the text or the selection. If
it was neither of these two, then it wrote the statement of the selection, and
nothing has changed since.
-/

namespace MetricQuery

/-- Whether an action takes a text from outside. -/
def Action.TakesText : Action → Prop
  | .editQuery _ | .loadSaved _ => True
  | _ => False

instance : DecidablePred Action.TakesText
  | .editQuery _ | .loadSaved _ => inferInstanceAs (Decidable True)
  | .selectTable _ | .selectFunction _ | .toggleMetric _ | .toggleDimension _ | .addFilter _
  | .removeFilter _ | .clearFilters | .execute | .setPage _ => inferInstanceAs (Decidable False)

namespace Session

variable {session : Session} {action : Action} (dataset : Dataset) (engine : Engine)

/-! ## The page -/

/-- Whether the page of a session is one of those that exist, or the first one. -/
structure HasPage (session : Session) : Prop where
  /-- Pages are counted from one. -/
  least : 1 ≤ session.page
  /-- There are as many pages as rows need. -/
  most : session.page ≤ max 1 session.totalPages

/-- A session starts on the first page. -/
theorem hasPage_initial : initial.HasPage := ⟨Nat.le_refl 1, Nat.le_max_left 1 _⟩

/-- Only running the text gives other rows. -/
theorem results_apply (other : action ≠ .execute) :
    (session.apply action dataset engine).results = session.results := by
  cases action with
  | execute => exact absurd rfl other
  | removeFilter index =>
    rw [Session.apply]
    split <;> rfl
  | _ => rfl

/-- Only running the text and asking for a page show another page. -/
theorem page_apply (other : action ≠ .execute) (stay : ∀ page, action ≠ .setPage page) :
    (session.apply action dataset engine).page = session.page := by
  cases action with
  | execute => exact absurd rfl other
  | setPage page => exact absurd rfl (stay page)
  | removeFilter index =>
    rw [Session.apply]
    split <;> rfl
  | _ => rfl

/-- Every action leads to a page that exists. -/
theorem HasPage.apply (hasPage : session.HasPage) (action : Action) :
    (session.apply action dataset engine).HasPage := by
  by_cases runs : action = .execute
  · subst runs
    exact ⟨Nat.le_refl 1, Nat.le_max_left 1 _⟩
  · have total : (session.apply action dataset engine).totalPages = session.totalPages := by
      rw [totalPages, results_apply dataset engine runs, totalPages]
    by_cases moves : ∃ page, action = .setPage page
    · obtain ⟨page, rfl⟩ := moves
      have most : max 1 (min page (max session.totalPages 1)) ≤ max 1 session.totalPages := by omega
      exact ⟨Nat.le_max_left 1 _, most⟩
    · have same : (session.apply action dataset engine).page = session.page :=
        page_apply dataset engine runs fun page asked => moves ⟨page, asked⟩
      exact ⟨same ▸ hasPage.least, by rw [same, total]; exact hasPage.most⟩

/-- A page that exists has rows if there are any. -/
theorem HasPage.results_eq_nil (hasPage : session.HasPage) (empty : session.pageRows = []) :
    session.results = [] := by
  obtain ⟨least, most⟩ := hasPage
  rw [pageRows, pageOf, List.take_eq_nil_iff, List.drop_eq_nil_iff] at empty
  have behind : session.results.length ≤ pageStart session.page rowsPerPage :=
    empty.resolve_left (by decide)
  have start : pageStart session.page rowsPerPage ≤ (session.page - 1) * 10 := Nat.min_le_left _ _
  have pages : session.totalPages = (session.results.length + 9) / 10 := rfl
  exact List.eq_nil_of_length_eq_zero (by omega)

/-! ## The text -/

/-- Whether an action leads to another text or another selection. -/
def Changes (session : Session) (action : Action) : Prop :=
  (session.apply action dataset engine).query ≠ session.query ∨
    (session.apply action dataset engine).selection ≠ session.selection

instance : Decidable (session.Changes dataset engine action) :=
  inferInstanceAs (Decidable (_ ∨ _))

/-- The last one of several actions that led to another text or another selection. -/
def lastChange? (session : Session) : List Action → Option Action
  | [] => none
  | action :: later =>
      match (session.apply action dataset engine).lastChange? later with
      | some last => some last
      | none => if session.Changes dataset engine action then some action else none

/-- An action that changes the text or the selection and takes no text from outside
writes the statement of the selection. -/
theorem query_of_changes (changes : session.Changes dataset engine action)
    (own : ¬ action.TakesText) :
    (session.apply action dataset engine).query =
      (session.apply action dataset engine).selection.statement := by
  cases action with
  | removeFilter index =>
    by_cases present : index < session.selection.filters.length
    · rw [Session.apply, if_pos present]
      rfl
    · simp [Changes, Session.apply, present] at changes
  | editQuery text => exact absurd trivial own
  | loadSaved saved => exact absurd trivial own
  | execute => simp [Changes, Session.apply] at changes
  | setPage page => simp [Changes, Session.apply] at changes
  | _ => rfl

/-- If none of several actions changed the text or the selection, both are as before.
If the last one that did took no text from outside, the text is the statement of the
selection. -/
theorem query_of_lastChange? (session : Session) (actions : List Action) :
    match session.lastChange? dataset engine actions with
    | some last => ¬ last.TakesText →
        (session.applyAll actions dataset engine).query =
          (session.applyAll actions dataset engine).selection.statement
    | none => (session.applyAll actions dataset engine).query = session.query ∧
        (session.applyAll actions dataset engine).selection = session.selection := by
  -- An action counts only if none behind it changed anything, so these come first.
  induction actions generalizing session with
  | nil => exact ⟨rfl, rfl⟩
  | cons action later inductionHypothesis =>
    have behind := inductionHypothesis (session.apply action dataset engine)
    rw [lastChange?]
    cases found : (session.apply action dataset engine).lastChange? dataset engine later with
    | some last =>
      rw [found] at behind
      exact behind
    | none =>
      rw [found] at behind
      obtain ⟨query, selection⟩ := behind
      by_cases changes : session.Changes dataset engine action
      · rw [if_pos changes]
        intro own
        exact query.trans ((query_of_changes dataset engine changes own).trans
          (congrArg Selection.statement selection.symm))
      · rw [if_neg changes]
        simp only [Changes, ne_eq, not_or, Decidable.not_not] at changes
        exact ⟨query.trans changes.1, selection.trans changes.2⟩

/-! ## Runs -/

/-- Every action of several leads to a page that exists. -/
theorem HasPage.applyAll (hasPage : session.HasPage) (actions : List Action) :
    (session.applyAll actions dataset engine).HasPage := by
  induction actions generalizing session with
  | nil => exact hasPage
  | cons action later inductionHypothesis =>
    exact inductionHypothesis (hasPage.apply dataset engine action)

/-- In every session that some actions lead to from the start, the page is one of
those that exist, and it is empty only if there are no rows. If the last action that
changed the text or the selection neither edited the text nor loaded a saved one, the
text is the statement of the selection. From there, only running the text gives other
rows; editing the text, running it and asking for a page keep the selection; and
dropping a filter that does not exist changes nothing. -/
theorem coherent_after_actions (actions : List Action) :
    let session := initial.applyAll actions dataset engine
    (1 ≤ session.page ∧ session.page ≤ max 1 session.totalPages ∧
      (session.pageRows = [] → session.results = [])) ∧
    ((∀ last ∈ initial.lastChange? dataset engine actions, ¬ last.TakesText) →
      session.query = session.selection.statement) ∧
    (∀ action, action ≠ .execute →
      (session.apply action dataset engine).results = session.results) ∧
    (∀ action, ((∃ text, action = .editQuery text) ∨ action = .execute ∨
        ∃ page, action = .setPage page) →
      (session.apply action dataset engine).selection = session.selection) ∧
    ∀ index, session.selection.filters.length ≤ index →
      session.apply (.removeFilter index) dataset engine = session := by
  intro session
  have hasPage : session.HasPage := hasPage_initial.applyAll dataset engine actions
  refine ⟨⟨hasPage.least, hasPage.most, hasPage.results_eq_nil⟩, ?text, ?rows, ?selection, ?filter⟩
  case text =>
    intro own
    have text := query_of_lastChange? dataset engine initial actions
    cases found : initial.lastChange? dataset engine actions with
    | some last =>
      rw [found] at text
      exact text (own last found)
    | none =>
      rw [found] at text
      exact text.1.trans (congrArg Selection.statement text.2.symm)
  case rows => exact fun action other => results_apply dataset engine other
  case selection => rintro action (⟨text, rfl⟩ | rfl | ⟨page, rfl⟩) <;> rfl
  case filter =>
    intro index past
    rw [Session.apply, if_neg (Nat.not_lt.mpr past)]

/-- An edited text is run and paged through; a filter that is added then counts, and
dropping one that does not exist or writing the same text does not. -/
theorem coherent_after_edits :
    let dataset := Dataset.ofList [("Sales", List.replicate 11 (.ofList [("net", .null)]))]
    let actions : List Action := [
      .toggleMetric ⟨"net", "Net", .currency⟩, .editQuery "SELECT net FROM sales", .execute,
      .setPage 99, .addFilter ⟨"net", .equal, "7"⟩, .removeFilter 1,
      .editQuery "SELECT \"id\", SUM(\"net\") AS \"net\"\nFROM \"sales\"\nWHERE \"net\" = '7'"]
    let session := initial.applyAll actions dataset {}
    session.page = 2 ∧ session.pageRows = [.ofList [("net", .null)]] ∧
      initial.lastChange? dataset {} actions = some (.addFilter ⟨"net", .equal, "7"⟩) ∧
        session.query = session.selection.statement := by
  intro dataset actions session
  have last : initial.lastChange? dataset {} actions = some (.addFilter ⟨"net", .equal, "7"⟩) := by
    decide +kernel
  have own : ∀ action ∈ initial.lastChange? dataset {} actions, ¬ action.TakesText := by
    rw [last]
    decide
  have text : session.query = session.selection.statement :=
    (coherent_after_actions dataset {} actions).2.1 own
  exact ⟨by decide +kernel, by decide +kernel, last, text⟩

end Session

end MetricQuery
