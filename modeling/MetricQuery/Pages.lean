import MetricQuery.Word

/-!
# Pages

Rows are shown in pages of a fixed size. Pages are counted from one, and page
zero is the first page as well. A page past the last one is empty, and so is
every page of size zero.

Counts and positions are words of 64 bits. A position that would leave that
range stays at its upper end, which lies past every row.
-/

namespace MetricQuery

/-- The number of rows on a page of results. -/
def rowsPerPage : Nat := 10

/-- The number of pages that some rows take. -/
def pageCount (rows size : Nat) : Nat :=
  if size = 0 then 0 else (rows + (size - 1)) / size

/-- The position of the first row of a page. -/
def pageStart (page size : Nat) : Nat := min ((page - 1) * size) Word.largest

/-- The rows of a page. -/
def pageOf {α : Type} (rows : List α) (page size : Nat) : List α :=
  (rows.drop (pageStart page size)).take size

end MetricQuery
