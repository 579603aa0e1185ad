import MetricQuery.Cell.Json
import MetricQuery.Proofs.Json.Number
import MetricQuery.Proofs.Json.Value

/-!
# Written cells and rows are read again

A cell that holds a text or nothing is read back as itself, for all characters in the text,
and so is every key of a row: none of them is taken for a number, and no number for anything
else. A number is read as a number again, though not always as the same one.

So a row is split into the words of the row with its numbers as they are read, and from
these words that row is read.
-/

namespace MetricQuery

open Json (SplitsInto Reads)

namespace Cell

/-- The cell that is read where a cell is written. -/
def reread : Cell → Cell
  | number x => number (Json.reread x)
  | text value => text value
  | null => null

/-- What is asked of a number of all numbers in some cells can be decided. -/
instance (good : Float → Bool) (cells : List Cell) :
    Decidable (∀ x, .number x ∈ cells → good x = true) :=
  decidable_of_iff (∀ cell ∈ cells, (match cell with | number x => good x | _ => true) = true)
    ⟨fun all x member => all (number x) member, fun all cell member =>
      match cell with
      | number x => all x member
      | text _ | null => rfl⟩

/-- A cell is split into the words of the cell that is read where it is written. -/
theorem splitsInto_toJson {cell : Cell} (finite : ∀ x, cell = .number x → isFinite x = true) :
    SplitsInto cell.toJson cell.reread.toJson := by
  cases cell with
  | number x => exact Json.splitsInto_float (finite x rfl)
  | text value => exact Json.readsBack_string value
  | null => exact Json.isDelimited_null.readsBack

/-- A cell that is read where a cell is written holds no number that is not finite. -/
theorem isFinite_of_reread {cell : Cell} (finite : ∀ x, cell = .number x → isFinite x = true) :
    ∀ x, cell.reread = .number x → isFinite x = true := by
  intro x same
  cases cell with
  | number y =>
    rw [← Cell.number.inj same]
    exact Json.isFinite_reread (finite y rfl)
  | text value => exact absurd same nofun
  | null => exact absurd same nofun

/-- A cell is read from its words. -/
theorem reads_toJson (depth : Nat) {cell : Cell}
    (finite : ∀ x, cell = .number x → isFinite x = true) :
    Reads Cell.reader depth cell.toJson cell := by
  intro rest
  cases cell with
  | number x =>
    rw [toJson, Json.float, if_pos (finite x rfl)]
    rfl
  | text value =>
    have same : String.ofList value.toList = value := String.ofList_toList
    simp [toJson, Json.string, reader]
  | null => rfl

/-- A cell whose number has a short text is read as itself. -/
theorem reread_eq_self {cell : Cell}
    (short : ∀ x, cell = .number x → Json.hasShortText x = true) : cell.reread = cell := by
  cases cell with
  | number x => exact congrArg number (Json.reread_of_hasShortText (short x rfl))
  | text value => rfl
  | null => rfl

end Cell

namespace Row

/-- The cells of a row. -/
def cells (row : Row) : List Cell := row.entries.map Prod.snd

/-- The row that is read where a row is written. -/
def reread (row : Row) : Row := row.mapValues Cell.reread

/-- A number in a cell of a row is one of the row's cells. -/
theorem number_mem_cells {row : Row} {entry : String × Cell} (member : entry ∈ row.entries)
    {x : Float} (same : entry.2 = .number x) : .number x ∈ row.cells :=
  same ▸ List.mem_map_of_mem member

/-- A row is split into the words of the row that is read where it is written. -/
theorem splitsInto_toJson {row : Row} (finite : ∀ x, .number x ∈ row.cells → isFinite x = true) :
    SplitsInto row.toJson row.reread.toJson := by
  refine Json.splitsInto_mapOf Cell.reread ?_
  intro entry member
  exact Cell.splitsInto_toJson fun x same => finite x (number_mem_cells member same)

/-- A row that is read where a row is written holds no number that is not finite. -/
theorem isFinite_of_reread {row : Row} (finite : ∀ x, .number x ∈ row.cells → isFinite x = true) :
    ∀ x, .number x ∈ row.reread.cells → isFinite x = true := by
  intro x listed
  obtain ⟨_, listedHere, same⟩ := List.mem_map.mp listed
  obtain ⟨entry, member, rfl⟩ := List.mem_map.mp listedHere
  exact Cell.isFinite_of_reread (fun y here => finite y (number_mem_cells member here)) x same

/-- A row is read from its words where one more object may be opened. -/
theorem reads_toJson {depth : Nat} (room : 1 < depth) {row : Row}
    (finite : ∀ x, .number x ∈ row.cells → isFinite x = true) :
    Reads Row.reader depth (toJson row) row := by
  refine Json.reads_mapOf room ?_
  intro entry member
  exact Cell.reads_toJson _ fun x same => finite x (number_mem_cells member same)

/-- A row whose numbers have short texts is read as itself. -/
theorem reread_eq_self {row : Row}
    (short : ∀ x, .number x ∈ row.cells → Json.hasShortText x = true) : row.reread = row := by
  refine SortedMap.mapValues_eq_self ?_
  intro entry member
  exact Cell.reread_eq_self fun x same => short x (number_mem_cells member same)

end Row

end MetricQuery
