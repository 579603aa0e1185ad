import MetricQuery.Proofs.Session

/-!
# Saved sessions are restored

What is saved of a session is its query text, its metrics and dimensions, and the
names of its table and its function. The filters are not saved: loading reads them
back from the text. So a session is restored only as far as its text is read back,
which is what being in step with its selection is for.

The main statement is that loading what was saved, into whatever session, gives the
selection and the text that were saved. From then on both sessions stay alike, since
neither the rows nor the page has a part in what is selected next.
-/

namespace MetricQuery

namespace Session

/-- The sessions that can be reached from the start by actions that keep the text
readable, over any datasets and with any engines. -/
inductive Reachable : Session → Prop where
  | initial : Reachable initial
  | step {session : Session} (reached : Reachable session) {action : Action}
      (keeping : action.KeepsStep) (dataset : Dataset) (engine : Engine) :
      Reachable (session.apply action dataset engine)

/-- Every session that can be reached is in step. -/
theorem Reachable.inStep {session : Session} (reachable : session.Reachable) : session.InStep := by
  induction reachable with
  | initial => exact inStep_initial
  | step _ keeping dataset engine inductionHypothesis =>
    exact inductionHypothesis.apply keeping dataset engine

/-- Several actions that keep the text readable lead from one such session to another. -/
theorem Reachable.applyAll {session : Session} (reachable : session.Reachable)
    {actions : List Action} (keeping : ∀ action ∈ actions, action.KeepsStep) (dataset : Dataset)
    (engine : Engine) : (session.applyAll actions dataset engine).Reachable := by
  induction actions generalizing session with
  | nil => exact reachable
  | cons action later inductionHypothesis =>
    obtain ⟨here, behind⟩ := List.forall_mem_cons.mp keeping
    exact inductionHypothesis (reachable.step here dataset engine) behind

/-- Whether two sessions have the same selection and the same text. -/
def Alike (session other : Session) : Prop :=
  session.selection = other.selection ∧ session.query = other.query

/-- Sessions that are alike stay alike after an action. -/
theorem Alike.apply {session other : Session} (alike : session.Alike other) (action : Action)
    (dataset otherDataset : Dataset) (engine otherEngine : Engine) :
    (session.apply action dataset engine).Alike (other.apply action otherDataset otherEngine) := by
  obtain ⟨selection, query⟩ := alike
  cases action with
  | removeFilter index =>
    simp only [Session.apply, selection]
    split
    · exact ⟨rfl, rfl⟩
    · exact ⟨selection, query⟩
  | editQuery text => exact ⟨selection, rfl⟩
  | loadSaved saved => exact ⟨rfl, rfl⟩
  | execute => exact ⟨selection, query⟩
  | setPage page => exact ⟨selection, query⟩
  | _ => simp [Alike, Session.apply, reselect, selection]

/-- Sessions that are alike stay alike after several actions. -/
theorem Alike.applyAll {session other : Session} (alike : session.Alike other)
    (actions : List Action) (dataset otherDataset : Dataset) (engine otherEngine : Engine) :
    (session.applyAll actions dataset engine).Alike
      (other.applyAll actions otherDataset otherEngine) := by
  induction actions generalizing session other with
  | nil => exact alike
  | cons action later inductionHypothesis =>
    exact inductionHypothesis (alike.apply action dataset otherDataset engine otherEngine)

/-- Nothing is saved of a session in step exactly if nothing is selected. -/
theorem InStep.record?_eq_none_iff {session : Session} (inStep : session.InStep)
    (moment : Instant) :
    session.record? moment = none ↔
      session.selection.metrics = [] ∧ session.selection.dimensions = [] := by
  rw [record?, inStep.query, Selection.isSentinel_statement inStep.function]
  cases bare : session.selection.isBare with
  | true => simpa [Selection.isBare] using bare
  | false =>
    have some : ¬ (session.selection.metrics = [] ∧ session.selection.dimensions = []) := by
      rintro ⟨noMetrics, noDimensions⟩
      simp [Selection.isBare, noMetrics, noDimensions] at bare
    simp [some]

/-- Loading what was saved of a session in step gives a session that is alike. -/
theorem InStep.alike_of_record? {session : Session} (inStep : session.InStep) {moment : Instant}
    {record : SavedQuery} (saved : session.record? moment = some record) (other : Session)
    (dataset : Dataset) (engine : Engine) :
    (other.apply (.loadSaved record) dataset engine).Alike session := by
  rw [record?, inStep.query, Selection.isSentinel_statement inStep.function] at saved
  cases bare : session.selection.isBare with
  | true => simp [bare] at saved
  | false =>
    rw [bare, if_neg Bool.false_ne_true, Option.some.injEq] at saved
    subst saved
    have filters : (Query.ofText session.selection.statement).conditions =
        session.selection.filters := by
      rw [Selection.ofText_statement_eq bare inStep.function inStep.filters]
      rfl
    refine ⟨?_, inStep.query.symm⟩
    simp only [Session.apply, SavedQuery.make, inStep.table, inStep.function.ofName_shown, filters]

/-- A session that was saved is restored. Of a session that was built without editing
its text or loading another one, something can be saved exactly if a metric or a
dimension is selected. Loading it into any session gives the table, the function,
the metrics, the dimensions, the filters and the text that were saved, and after any
further actions the two sessions still have the same selection and the same text. -/
theorem saved_session_restored {session : Session} (reachable : session.Reachable)
    (moment : Instant) :
    (session.record? moment = none ↔
        session.selection.metrics = [] ∧ session.selection.dimensions = []) ∧
      ∀ record, session.record? moment = some record →
        ∀ (other : Session) (dataset : Dataset) (engine : Engine),
          let loaded := other.apply (.loadSaved record) dataset engine
          loaded.selection = session.selection ∧ loaded.query = session.query ∧
            ∀ (later : List Action) (dataset' : Dataset) (engine' : Engine),
              (loaded.applyAll later dataset engine).selection =
                  (session.applyAll later dataset' engine').selection ∧
                (loaded.applyAll later dataset engine).query =
                  (session.applyAll later dataset' engine').query := by
  have inStep := reachable.inStep
  refine ⟨inStep.record?_eq_none_iff moment, ?_⟩
  intro record saved other dataset engine loaded
  have alike : loaded.Alike session := inStep.alike_of_record? saved other dataset engine
  refine ⟨alike.1, alike.2, ?_⟩
  intro later dataset' engine'
  exact alike.applyAll later dataset dataset' engine engine'

/-- A function with a name of its own, a table in capitals, quotes and escapes in
filters, and a session with other selections and a broken text do not matter. -/
theorem saved_session_restored_awkward :
    let session := initial.applyAll [
      .selectTable "ΣÅ \"Orders\"", .selectFunction (.other "größe_2"),
      .addFilter ⟨"x = 'y' AND z", .like, "it's \\ '' -- \t\r\n"⟩,
      .toggleMetric ⟨"net), SUM(\"gross", "Net", .currency⟩, .addFilter ⟨"", .atMost, ""⟩,
      .toggleDimension ⟨"a, b FROM c", "", none⟩, .execute] (.ofList []) {}
    let other := initial.applyAll [.selectFunction .count, .editQuery "WHERE ("] (.ofList []) {}
    let record := SavedQuery.make session.query session.selection.metrics
      session.selection.dimensions session.selection.table session.selection.function.shown ⟨0, 0⟩
    session.record? ⟨0, 0⟩ = some record ∧
      (other.apply (.loadSaved record) (.ofList []) {}).selection = {
        table := "σå \"orders\""
        function := .other "größe_2"
        metrics := [⟨"net), SUM(\"gross", "Net", .currency⟩]
        dimensions := [⟨"a, b FROM c", "", none⟩]
        filters := [⟨"x = 'y' AND z", .like, "it's \\ '' -- \t\r\n"⟩, ⟨"", .atMost, ""⟩] } := by
  intro session other record
  have reachable : session.Reachable :=
    Reachable.initial.applyAll (by decide +kernel) (.ofList []) {}
  have saved : session.record? ⟨0, 0⟩ = some record := by decide +kernel
  refine ⟨saved, ?_⟩
  have restored := (saved_session_restored reachable ⟨0, 0⟩).2 record saved other (.ofList []) {}
  exact restored.1.trans (by decide +kernel)

end Session

end MetricQuery
