import MetricQuery.Catalog
import MetricQuery.Console.Command
import MetricQuery.Console.Table
import MetricQuery.Session

/-!
# The console

The console is a session that is driven by lines of text. Each line gets an
answer, some lines of text, and may end the session. A console knows the
catalog that it was started with and the queries that were saved in it.

The console reads no clock: whoever hands it a line also says at what moment.
-/

namespace MetricQuery

namespace Console

/-- The answer to a line. -/
structure Reply where
  /-- The lines of the answer. -/
  lines : List String := []
  /-- Whether the session ends. -/
  quit : Bool := false
  /-- Whether a query was saved. -/
  saved : Bool := false
  deriving DecidableEq, Repr

/-- The text of an answer, with a line break after each line. -/
def Reply.text (reply : Reply) : String :=
  String.join (reply.lines.map fun line => line ++ "\n")

/-- The answer of one line. -/
def Reply.say (line : String) : Reply := { lines := [line] }

/-- What the console can do. -/
def helpText : String :=
  "Any other input replaces the query text and runs it.\n" ++
  "\n" ++
  "  :tables                       list tables with their metrics and dimensions\n" ++
  "  :table <name>                 switch table (clears the selection)\n" ++
  "  :agg <func>                   aggregation for metrics (sum, avg, count, min, max)\n" ++
  "  :metric <field>               toggle a metric\n" ++
  "  :dim <field>                  toggle a dimension\n" ++
  "  :filter <field> <op> <value>  add a filter (=, >, <, >=, <=, like)\n" ++
  "  :clear                        remove all filters\n" ++
  "  :show                         print the current query\n" ++
  "  :exec                         run the current query\n" ++
  "  :page <n>                     show page n of the last result\n" ++
  "  :save                         save the current query\n" ++
  "  :saved                        list saved queries\n" ++
  "  :run <id>                     load and run a saved query\n" ++
  "  :delete <id>                  delete a saved query\n" ++
  "  :help                         this text\n" ++
  "  :quit                         exit"

end Console

/-- A session that is driven by lines of text. -/
structure Console where
  /-- The tables on offer. -/
  catalog : Catalog
  /-- The session. -/
  session : Session := .initial
  /-- The queries that were saved. -/
  saved : SavedQueries := {}
  deriving DecidableEq

namespace Console

/-- The console after an action in its session. -/
def perform (console : Console) (action : Action) : Console :=
  { console with
    session := console.session.apply action console.catalog.dataset console.catalog.engine }

/-- The page that is shown, as lines. -/
def pageLines (session : Session) : List String :=
  let rows := session.pageRows
  if rows.isEmpty then ["(no rows)"]
  else
    tableLines rows ++
      ["page " ++ toString session.page ++ "/" ++ toString session.totalPages ++ " (" ++
        toString session.results.length ++ " rows)"]

/-- A table with its metrics and dimensions, as lines. -/
def describeTable (table : Table) : List String := [
  table.name ++ " (" ++ toString table.rows.length ++ " rows)",
  "  metrics:    " ++ String.intercalate ", " (table.metrics.map Metric.value),
  "  dimensions: " ++ String.intercalate ", " (table.dimensions.map Dimension.value)]

/-- A saved query as a line. -/
def describeSaved (record : SavedQuery) : String :=
  toString record.id ++ "  " ++ record.timestamp ++ "  " ++ record.query

/-- Perform an action and show the text of the query. -/
def change (console : Console) (action : Action) : Console × Reply :=
  let next := console.perform action
  (next, .say next.session.query)

/-- Run the text of the query and show its first page. -/
def runCurrent (console : Console) : Console × Reply :=
  let next := console.perform .execute
  (next, { lines := pageLines next.session })

/-- Choose a table of the catalog. -/
def chooseTable (console : Console) (name : String) : Console × Reply :=
  if (console.catalog.table? name).isSome then console.change (.selectTable name)
  else (console, .say ("unknown table: " ++ name))

/-- Select or drop a metric of the table that is selected. -/
def toggleMetric (console : Console) (field : String) : Console × Reply :=
  let table := console.session.selection.table
  match (console.catalog.table? table).bind fun found => found.metric? field with
  | some metric => console.change (.toggleMetric metric)
  | none => (console, .say (table ++ " has no metric " ++ field))

/-- Select or drop a dimension of the table that is selected. -/
def toggleDimension (console : Console) (field : String) : Console × Reply :=
  let table := console.session.selection.table
  match (console.catalog.table? table).bind fun found => found.dimension? field with
  | some dimension => console.change (.toggleDimension dimension)
  | none => (console, .say (table ++ " has no dimension " ++ field))

/-- Add a filter. -/
def addFilter (console : Console) (argument : String) : Console × Reply :=
  match filter? argument with
  | some filter => console.change (.addFilter filter)
  | none => (console, .say "usage: :filter <field> <op> <value>")

/-- Show a page. -/
def showPage (console : Console) (argument : String) : Console × Reply :=
  match natural? argument with
  | some page =>
      let next := console.perform (.setPage page)
      (next, { lines := pageLines next.session })
  | none => (console, .say "usage: :page <n>")

/-- Save the query. The answer names the number of the moment, also where the
query is kept under another one. -/
def saveQuery (console : Console) (moment : Instant) : Console × Reply :=
  match console.session.record? moment with
  | none => (console, .say "nothing to save")
  | some record =>
      match console.saved.save record with
      | .added saved =>
          ({ console with saved := saved },
            { lines := ["saved as " ++ toString record.id], saved := true })
      | .known => (console, .say "already saved")
      | .exhausted => (console, { quit := true })

/-- List the saved queries. -/
def listSaved (console : Console) : Console × Reply :=
  match console.saved.records with
  | [] => (console, .say "no saved queries")
  | records => (console, { lines := records.map describeSaved })

/-- The saved query that an argument names. -/
def savedNamed? (console : Console) (argument : String) : Option SavedQuery :=
  (integer? argument).bind console.saved.get?

/-- The answer to a number that no saved query has. -/
def noSaved (argument : String) : Reply := .say ("no saved query with id " ++ argument)

/-- Load a saved query and run it. -/
def runSaved (console : Console) (argument : String) : Console × Reply :=
  match console.savedNamed? argument with
  | some record => (console.perform (.loadSaved record)).runCurrent
  | none => (console, noSaved argument)

/-- Drop a saved query. -/
def deleteSaved (console : Console) (argument : String) : Console × Reply :=
  match console.savedNamed? argument with
  | some record =>
      ({ console with saved := console.saved.remove record.id },
        .say ("deleted " ++ toString record.id))
  | none => (console, noSaved argument)

/-- Carry out a command. -/
def command (console : Console) (moment : Instant) (name argument : String) : Console × Reply :=
  match name with
  | "quit" | "q" | "exit" => (console, { quit := true })
  | "help" => (console, .say helpText)
  | "tables" => (console, { lines := console.catalog.tables.flatMap describeTable })
  | "table" => console.chooseTable argument
  | "agg" => console.change (.selectFunction (.ofName argument))
  | "metric" => console.toggleMetric argument
  | "dim" => console.toggleDimension argument
  | "filter" => console.addFilter argument
  | "clear" => console.change .clearFilters
  | "show" => (console, .say console.session.query)
  | "exec" => console.runCurrent
  | "page" => console.showPage argument
  | "save" => console.saveQuery moment
  | "saved" => console.listSaved
  | "run" => console.runSaved argument
  | "delete" => console.deleteSaved argument
  | _ => (console, .say ("unknown command :" ++ name ++ " (try :help)"))

/-- Handle a line at a moment. -/
def handle (console : Console) (moment : Instant) (text : String) : Console × Reply :=
  match Line.ofText text with
  | .query query => (console.perform (.editQuery query)).runCurrent
  | .command name argument => console.command moment name argument

end Console

end MetricQuery
