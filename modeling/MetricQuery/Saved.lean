import MetricQuery.Dataset
import MetricQuery.Instant
import MetricQuery.Query.Reading
import MetricQuery.Selection.Statement
import MetricQuery.Word

/-!
# Saved queries

A saved query keeps the text of a query, the selection it came from, and when
it was saved. The milliseconds of that moment are its number.

A collection keeps saved queries in the order in which they were added. No
query text is added twice. A number that is already taken is replaced by the
one after the largest number in the collection. Numbers are integers of 64 bits
with a sign, so a collection that holds the largest of them has no number left
to give, and adding fails.
-/

namespace MetricQuery

/-- The table of a query that names none. -/
def defaultTable : String := "sales"

/-- A query that was kept. -/
structure SavedQuery where
  /-- The number by which it is called. -/
  id : Int
  /-- Its text. -/
  query : String
  /-- The metrics that were selected. -/
  metrics : List Metric
  /-- The dimensions that were selected. -/
  dimensions : List Dimension
  /-- When it was saved, as text. -/
  timestamp : String
  /-- The table that was selected. -/
  table : String
  /-- The name of the function that was selected. -/
  function : String
  deriving DecidableEq, Repr

/-- The table that a query reads in a place where it must name none: its own in
lower case, or the default one. -/
def Query.tableOrDefault (query : Query) : String :=
  if query.table.isEmpty then defaultTable else Text.lowered query.table

namespace SavedQuery

/-- Keep a query at a moment. -/
def make (query : String) (metrics : List Metric) (dimensions : List Dimension)
    (table function : String) (moment : Instant) : SavedQuery where
  id := moment.milliseconds
  query := query
  metrics := metrics
  dimensions := dimensions
  timestamp := moment.text
  table := table
  function := function

/-- The table that a saved query reads. -/
def sourceTable (saved : SavedQuery) : String := (Query.ofText saved.query).tableOrDefault

/-- Run a saved query. -/
def run (saved : SavedQuery) (dataset : Dataset) (engine : Engine) : List Row :=
  if isSentinel saved.query then []
  else
    let query := Query.ofText saved.query
    match dataset.rows? query.tableOrDefault with
    | some rows => engine.run query rows
    | none => []

end SavedQuery

/-- The largest number that a saved query can have. -/
def largestId : Int := Word.largestSigned

/-- A collection of saved queries, in the order in which they were added. -/
structure SavedQueries where
  /-- The saved queries. -/
  records : List SavedQuery := []
  deriving DecidableEq, Repr

/-- What comes of adding a query to a collection. -/
inductive SaveOutcome where
  /-- The query was added. -/
  | added (saved : SavedQueries)
  /-- Its text is already there. -/
  | known
  /-- Its number is taken and there is none left to give. -/
  | exhausted
  deriving DecidableEq, Repr

namespace SavedQueries

/-- The first saved query with a number. -/
def get? (saved : SavedQueries) (id : Int) : Option SavedQuery :=
  saved.records.find? fun record => record.id = id

/-- Whether a query text is in the collection. -/
def holdsText (saved : SavedQueries) (query : String) : Bool :=
  saved.records.any fun record => record.query = query

/-- The largest number in a list of saved queries, and at least the given one. -/
def largestFrom (least : Int) (records : List SavedQuery) : Int :=
  records.foldl (fun largest record => max largest record.id) least

/-- The number after the largest one in the collection, if there is one. -/
def nextId? (saved : SavedQueries) : Option Int :=
  let largest :=
    match saved.records with
    | [] => 0
    | first :: later => largestFrom first.id later
  if largest < largestId then some (largest + 1) else none

/-- The number under which a query is added: its own if that is free. -/
def freeId? (saved : SavedQueries) (id : Int) : Option Int :=
  if (saved.get? id).isSome then saved.nextId? else some id

/-- Add a query at the end. -/
def save (saved : SavedQueries) (record : SavedQuery) : SaveOutcome :=
  if saved.holdsText record.query then .known
  else
    match saved.freeId? record.id with
    | some id => .added ⟨saved.records ++ [{ record with id := id }]⟩
    | none => .exhausted

/-- The collection without its first query with a number. -/
def remove (saved : SavedQueries) (id : Int) : SavedQueries :=
  ⟨saved.records.eraseP fun record => record.id = id⟩

/-- Add several queries one after the other; nothing if numbers run out. -/
def saveAll (saved : SavedQueries) : List SavedQuery → Option SavedQueries
  | [] => some saved
  | record :: later =>
      match saved.save record with
      | .added more => more.saveAll later
      | .known => saved.saveAll later
      | .exhausted => none

/-- Run the query with a number, if there is one. -/
def run (saved : SavedQueries) (id : Int) (dataset : Dataset) (engine : Engine) :
    Option (List Row) :=
  (saved.get? id).map fun record => record.run dataset engine

end SavedQueries

end MetricQuery
