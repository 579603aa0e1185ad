import MetricQuery.Cell

/-!
# Rows as a table

Rows are shown as a table with one column for every field that one of them has:
the identifying field first, and the others in ascending order. A row without a
field shows the empty text in its column. Cells of a line are separated by tabs.
-/

namespace MetricQuery.Console

/-- Add the fields of a row to a set of fields. -/
def addFields (fields : SortedMap Unit) (row : Row) : SortedMap Unit :=
  row.keys.foldl (fun fields field => fields.insert field ()) fields

/-- The fields of some rows in ascending order, each once. -/
def fieldsOf (rows : List Row) : List String := (rows.foldl addFields .empty).keys

/-- The columns of some rows. -/
def columns (rows : List Row) : List String :=
  let fields := fieldsOf rows
  fields.filter (· = "id") ++ fields.filter (· ≠ "id")

/-- The text of a row in a column. -/
def cellText (row : Row) (column : String) : String :=
  ((row.get? column).map Cell.shown).getD ""

/-- A line of the table. -/
def line (cells : List String) : String := String.intercalate "\t" cells

/-- The lines of the table, the one with the names of the columns first. -/
def tableLines (rows : List Row) : List String :=
  let header := columns rows
  line header :: rows.map fun row => line (header.map (cellText row))

end MetricQuery.Console
