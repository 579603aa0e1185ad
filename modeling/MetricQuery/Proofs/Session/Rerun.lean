import MetricQuery.Session
import MetricQuery.Proofs.Text.Lowercase

/-!
# Two ways to run a saved query again

A saved query can be run on its own, and it can be loaded into a session and run
there. Both ways leave out a text that stands for no statement, and both run any other
text over one table. They differ in the table of a text that names none: on its own the
query reads the default table, in a session the one that was saved with it.

So both ways give the same rows wherever the text names its table, wherever the saved
table is the default one, and wherever there is nothing to run. The condition cannot be
left out: a text without a table is found whose two runs differ.
-/

namespace MetricQuery

/-- Run a query over the table with a name, whichever table the query names. -/
def Engine.runOver (engine : Engine) (query : Query) (dataset : Dataset) (name : String) :
    List Row :=
  match dataset.rows? name with
  | some rows => engine.run query rows
  | none => []

/-- Names that agree in lower case stand for the same table. -/
theorem Engine.runOver_congr (engine : Engine) (query : Query) (dataset : Dataset)
    {name other : String} (same : Text.lowered name = Text.lowered other) :
    engine.runOver query dataset name = engine.runOver query dataset other := by
  rw [runOver, runOver, Dataset.rows?, Dataset.rows?, same]

/-- A query that asks for nothing gives no rows, whatever table it is run over. -/
theorem Engine.runOver_empty (engine : Engine) (dataset : Dataset) (name : String) :
    engine.runOver {} dataset name = [] := by
  rw [runOver]
  split <;> rfl

/-- The table of a text that names its own. -/
theorem Query.tableOrDefault_of_named {query : Query} (named : query.table ≠ "") :
    query.tableOrDefault = Text.lowered query.table := by
  rw [tableOrDefault, if_neg]
  simpa using named

namespace SavedQuery

/-- On its own, a text that stands for a statement is run over its table or the default one. -/
theorem run_eq_runOver {record : SavedQuery} (stands : isSentinel record.query = false)
    (dataset : Dataset) (engine : Engine) :
    record.run dataset engine =
      engine.runOver (Query.ofText record.query) dataset
        (Query.ofText record.query).tableOrDefault := by
  rw [run, stands, if_neg Bool.false_ne_true]
  rfl

end SavedQuery

namespace Session

/-- The rows of a session that has loaded a saved query and run it. -/
def rerun (session : Session) (record : SavedQuery) (dataset : Dataset) (engine : Engine) :
    List Row :=
  (session.applyAll [.loadSaved record, .execute] dataset engine).results

variable {session : Session} {record : SavedQuery} (dataset : Dataset) (engine : Engine)

/-- A text that stands for no statement gives no rows in a session. -/
theorem rerun_of_isSentinel (sentinel : isSentinel record.query = true) :
    session.rerun record dataset engine = [] := by
  have loaded : (session.apply (.loadSaved record) dataset engine).query = record.query := rfl
  change (session.apply (.loadSaved record) dataset engine).answer dataset engine = []
  rw [answer, loaded, sentinel, if_pos rfl]

/-- A text that stands for a statement is run in a session over its table or the saved one. -/
theorem rerun_eq_runOver (stands : isSentinel record.query = false) :
    session.rerun record dataset engine =
      engine.runOver (Query.ofText record.query) dataset
        (if (Query.ofText record.query).table = "" then record.table
          else (Query.ofText record.query).table) := by
  have loaded : (session.apply (.loadSaved record) dataset engine).query = record.query := rfl
  have table : (session.apply (.loadSaved record) dataset engine).selection.table =
      Text.lowered record.table := rfl
  change (session.apply (.loadSaved record) dataset engine).answer dataset engine = _
  rw [answer, loaded, stands, if_neg Bool.false_ne_true]
  change engine.runOver (Query.ofText record.query) dataset (sourceTable _ _) = _
  refine engine.runOver_congr _ _ ?_
  rw [sourceTable, table]
  by_cases unnamed : (Query.ofText record.query).table = ""
  · simp [unnamed, Text.lowered_lowered]
  · simp [unnamed, Text.lowered_lowered]

/-- Loading a saved query into any session and running it gives the rows that the query
gives on its own, if its text stands for no statement, asks for nothing or names its
table, or if the default table was saved with it, in any letter case. In every other
case the session runs the same query over the table that was saved with it, and the
query on its own runs over the default table. -/
theorem rerun_eq_run (session : Session) (record : SavedQuery) :
    let query := Query.ofText record.query
    (isSentinel record.query = true ∨ query = {} ∨ query.table ≠ "" ∨
        Text.lowered record.table = defaultTable →
      session.rerun record dataset engine = record.run dataset engine) ∧
    (isSentinel record.query = false → query.table = "" →
      session.rerun record dataset engine = engine.runOver query dataset record.table ∧
        record.run dataset engine = engine.runOver query dataset defaultTable) := by
  intro query
  have unnamedRuns : isSentinel record.query = false → query.table = "" →
      session.rerun record dataset engine = engine.runOver query dataset record.table ∧
        record.run dataset engine = engine.runOver query dataset defaultTable := by
    intro stands unnamed
    constructor
    · rw [rerun_eq_runOver dataset engine stands, if_pos unnamed]
    · rw [SavedQuery.run_eq_runOver stands, Query.tableOrDefault, if_pos]
      simpa using unnamed
  refine ⟨?_, unnamedRuns⟩
  intro agreed
  cases sentinel : isSentinel record.query with
  | true =>
    rw [rerun_of_isSentinel dataset engine sentinel, SavedQuery.run, sentinel, if_pos rfl]
  | false =>
    by_cases unnamed : query.table = ""
    · obtain ⟨inSession, alone⟩ := unnamedRuns sentinel unnamed
      rw [inSession, alone]
      rcases agreed with standsNot | nothing | named | isDefault
      · rw [sentinel] at standsNot
        cases standsNot
      · rw [nothing, engine.runOver_empty, engine.runOver_empty]
      · exact absurd unnamed named
      · refine engine.runOver_congr _ _ ?_
        rw [← isDefault, Text.lowered_lowered]
    · rw [rerun_eq_runOver dataset engine sentinel, if_neg unnamed,
        SavedQuery.run_eq_runOver sentinel, Query.tableOrDefault_of_named unnamed]
      exact engine.runOver_congr _ _ (Text.lowered_lowered _).symm

/-- A text that names its table is run alike. One that names none is run over the table
that was saved with it in a session, and over the default table on its own. -/
theorem rerun_eq_run_orders :
    let dataset := Dataset.ofList [("Sales", [.ofList [("id", .text "7")]]),
      ("orders", [.ofList [("id", .text "8")], .ofList [("id", .text "9")]])]
    let record : String → SavedQuery := fun query => ⟨1, query, [], [], "", "Orders", "SUM"⟩
    initial.rerun (record "SELECT id FROM ORDERS WHERE id > 8") dataset {} =
        (record "SELECT id FROM ORDERS WHERE id > 8").run dataset {} ∧
      initial.rerun (record "SELECT id WHERE id < 9") dataset {} = [.ofList [("id", .text "8")]] ∧
      (record "SELECT id WHERE id < 9").run dataset {} = [.ofList [("id", .text "7")]] := by
  intro dataset record
  have named : (Query.ofText (record "SELECT id FROM ORDERS WHERE id > 8").query).table ≠ "" := by
    decide +kernel
  have stands : isSentinel (record "SELECT id WHERE id < 9").query = false := by decide +kernel
  have unnamed : (Query.ofText (record "SELECT id WHERE id < 9").query).table = "" := by
    decide +kernel
  have alike := (rerun_eq_run dataset {} initial (record "SELECT id FROM ORDERS WHERE id > 8")).1
    (.inr (.inr (.inl named)))
  obtain ⟨inSession, alone⟩ :=
    (rerun_eq_run dataset {} initial (record "SELECT id WHERE id < 9")).2 stands unnamed
  exact ⟨alike, inSession.trans (by decide +kernel), alone.trans (by decide +kernel)⟩

/-- A text that names no table was saved with a table that has no rows. Run on its own,
it gives the row of the default table. -/
theorem rerun_ne_run_of_unnamed :
    let dataset := Dataset.ofList [("sales", [.ofList [("id", .text "1")]]), ("orders", [])]
    let record : SavedQuery :=
      ⟨1, "SELECT id", [], [], "1970-01-01T00:00:00.001+00:00", "orders", "SUM"⟩
    record.run dataset {} = [.ofList [("id", .text "1")]] ∧
      initial.rerun record dataset {} ≠ record.run dataset {} := by
  intro dataset record
  have alone : record.run dataset {} = [.ofList [("id", .text "1")]] := by decide +kernel
  have inSession : initial.rerun record dataset {} = [] := by decide +kernel
  refine ⟨alone, ?_⟩
  rw [alone, inSession]
  exact (List.cons_ne_nil _ _).symm

end Session

end MetricQuery
