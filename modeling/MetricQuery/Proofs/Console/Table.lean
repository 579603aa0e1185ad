import Mathlib.Data.List.Forall2
import MetricQuery.Console
import MetricQuery.Proofs.SortedMap
import MetricQuery.Proofs.Text.ByteOrder

/-!
# The table of a page

The fields of the rows of a page are collected in a map, so each of them is there once and
they come out in ascending order. The columns are these fields, with the identifying one
moved to the front. A line of the table goes through the columns for its row and not
through the row, so its cells stand under the columns that they belong to, whichever fields
the row has.

Nothing is lost and nothing shown twice: every field of every row has one column, every
column is a field of some row, and every row has one cell in each column.
-/

namespace MetricQuery.Console

variable {rows : List Row} {row : Row} {field : String}

/-! ## Columns -/

/-- The fields of a row are added to those that are there already. -/
theorem mem_keys_addFields {fields : SortedMap Unit} :
    field ∈ (addFields fields row).keys ↔ field ∈ fields.keys ∨ field ∈ row.keys := by
  suffices walk : ∀ added : List String,
      field ∈ (added.foldl (fun fields field => fields.insert field ()) fields).keys ↔
        field ∈ fields.keys ∨ field ∈ added from walk row.keys
  intro added
  induction added generalizing fields with
  | nil => simp
  | cons first later inductionHypothesis =>
    rw [List.foldl_cons, inductionHypothesis, SortedMap.mem_keys_insert, List.mem_cons]
    exact (or_congr_left or_comm).trans or_assoc

/-- The fields of some rows are the fields of each of them. -/
theorem mem_fieldsOf : field ∈ fieldsOf rows ↔ ∃ row ∈ rows, field ∈ row.keys := by
  suffices walk : ∀ fields : SortedMap Unit,
      field ∈ (rows.foldl addFields fields).keys ↔
        field ∈ fields.keys ∨ ∃ row ∈ rows, field ∈ row.keys by
    simpa [fieldsOf, SortedMap.keys, SortedMap.empty] using walk .empty
  induction rows with
  | nil => simp
  | cons row later inductionHypothesis =>
    intro fields
    rw [List.foldl_cons, inductionHypothesis, mem_keys_addFields, or_assoc]
    simp only [List.mem_cons, exists_eq_or_imp]

/-- A field has a column if a row has the field. -/
theorem mem_columns : field ∈ columns rows ↔ ∃ row ∈ rows, field ∈ row.keys := by
  rw [← mem_fieldsOf, columns, List.mem_append, List.mem_filter, List.mem_filter]
  by_cases identifying : field = "id" <;> simp [identifying]

/-- No field has two columns. -/
theorem columns_nodup (rows : List Row) : (columns rows).Nodup := by
  have once : (fieldsOf rows).Nodup := SortedMap.keys_nodup _
  refine List.nodup_append.mpr ⟨once.filter _, once.filter _, ?_⟩
  intro identifying identified other different
  have same : identifying = "id" := of_decide_eq_true (List.mem_filter.mp identified).2
  have apart : other ≠ "id" := of_decide_eq_true (List.mem_filter.mp different).2
  exact same ▸ apart.symm

/-- The identifying field comes first. -/
theorem head?_columns (identified : "id" ∈ columns rows) : (columns rows).head? = some "id" := by
  have present : "id" ∈ fieldsOf rows := mem_fieldsOf.mpr (mem_columns.mp identified)
  have first : "id" ∈ (fieldsOf rows).filter (· = "id") := List.mem_filter.mpr ⟨present, by simp⟩
  obtain ⟨front, behind, shape⟩ := List.exists_cons_of_ne_nil (List.ne_nil_of_mem first)
  have member : front ∈ (fieldsOf rows).filter (· = "id") := shape ▸ List.mem_cons_self
  have same : front = "id" := of_decide_eq_true (List.mem_filter.mp member).2
  rw [columns, shape, same]
  rfl

/-- The other fields come in the order of their bytes. -/
theorem columns_ascending (rows : List Row) :
    ((columns rows).filter (· ≠ "id")).Pairwise
      fun earlier later => Text.bytesOf earlier < Text.bytesOf later := by
  have others : (columns rows).filter (· ≠ "id") = (fieldsOf rows).filter (· ≠ "id") := by
    simp [columns, List.filter_append, List.filter_filter]
  rw [others]
  exact ((SortedMap.keys_ascending _).filter _).imp Text.bytesOf_lt

/-! ## Cells -/

/-- What a row shows in a column: the text of its value there, or nothing. -/
inductive Shows (row : Row) (column : String) : String → Prop where
  /-- The row has a value in the column. -/
  | value {cell : Cell} (bound : row.get? column = some cell) : Shows row column cell.shown
  /-- The row has no value in the column. -/
  | nothing (unbound : row.get? column = none) : Shows row column ""

/-- The text of a cell is what the row shows there. -/
theorem shows_cellText (row : Row) (column : String) : Shows row column (cellText row column) := by
  rw [cellText]
  cases bound : row.get? column with
  | none => exact .nothing bound
  | some cell => exact .value bound

/-- Whether columns and cells show some rows: every field of a row in one column, and every
row in each column. -/
structure Tabulates (rows : List Row) (header : List String) (cells : List (List String)) :
    Prop where
  /-- The columns are the fields of the rows. -/
  fields : ∀ field, field ∈ header ↔ ∃ row ∈ rows, field ∈ row.keys
  /-- No field has two columns. -/
  once : header.Nodup
  /-- The identifying field comes first. -/
  identified : "id" ∈ header → header.head? = some "id"
  /-- The other fields come in the order of their bytes. -/
  ascending : (header.filter (· ≠ "id")).Pairwise
    fun earlier later => Text.bytesOf earlier < Text.bytesOf later
  /-- Each row has one cell in each column, with what it shows there. -/
  shown : List.Forall₂ (fun row texts => List.Forall₂ (Shows row) header texts) rows cells

/-- The columns of some rows, with the text of each row in each of them, show the rows. -/
theorem tabulates_columns (rows : List Row) :
    Tabulates rows (columns rows) (rows.map fun row => (columns rows).map (cellText row)) where
  fields := fun _ => mem_columns
  once := columns_nodup rows
  identified := head?_columns
  ascending := columns_ascending rows
  shown := by
    refine List.forall₂_map_right_iff.mpr (List.forall₂_same.mpr fun row _ => ?_)
    exact List.forall₂_map_right_iff.mpr (List.forall₂_same.mpr fun column _ => shows_cellText row column)

/-- A page that has rows is shown as their table and a line about the page. -/
theorem exists_pageLines {session : Session} (filled : session.pageRows ≠ []) :
    ∃ footer, pageLines session = tableLines session.pageRows ++ [footer] := by
  have rows : session.pageRows.isEmpty = false := List.isEmpty_eq_false_iff.mpr filled
  rw [pageLines]
  simp only [rows, Bool.false_eq_true, if_false]
  exact ⟨_, rfl⟩

/-- The lines of a page that has rows are the names of the columns, one line for each row,
and one about the page, with tabs between the cells of a line. The columns are the fields of
the rows, each once, with the identifying field first if a row has it and the others in the
order of their bytes. The line of a row has one cell in each column: the text of the value
that the row has there, or the empty text where it has none. -/
theorem page_shows_every_field (session : Session) (filled : session.pageRows ≠ []) :
    ∃ (header : List String) (cells : List (List String)) (footer : String),
      pageLines session =
          String.intercalate "\t" header :: cells.map (String.intercalate "\t") ++ [footer] ∧
        Tabulates session.pageRows header cells := by
  obtain ⟨footer, lines⟩ := exists_pageLines filled
  refine ⟨_, _, footer, ?_, tabulates_columns session.pageRows⟩
  rw [lines, tableLines, List.map_map]
  rfl

/-- Two rows on a page, one of which has no identifying field and the other no amount. -/
theorem page_shows_every_field_of_mixed_rows :
    let session : Session :=
      { Session.initial with
        results := [.ofList [("zone", .text "west"), ("id", .text "7")],
          .ofList [("amount", .null), ("zone", .text "east")]] }
    session.pageRows ≠ [] ∧
      ∃ (header : List String) (cells : List (List String)) (footer : String),
        pageLines session =
            String.intercalate "\t" header :: cells.map (String.intercalate "\t") ++ [footer] ∧
          Tabulates session.pageRows header cells := by
  intro session
  have filled : session.pageRows ≠ [] := by decide
  exact ⟨filled, page_shows_every_field session filled⟩

/-- The columns of these rows are the identifying field and the other two in order, and a
field that is missing shows the same as a value that is null. -/
example :
    tableLines [.ofList [("zone", .text "west"), ("id", .text "7")],
        .ofList [("amount", .null), ("zone", .text "east")]] =
      ["id\tamount\tzone", "7\t\twest", "\t\teast"] := by
  decide +kernel

end MetricQuery.Console
