import MetricQuery.Proofs.Saved
import MetricQuery.Proofs.Selection.Json
import MetricQuery.Saved.Json

/-!
# Saved queries survive being written and read

A saved query is an object of strings, one number, and two lists of objects of
strings. So it is read back if its number is an integer of 64 bits, for all
characters in its strings and all fields in its lists, and so is a list of saved
queries.

Reading a collection adds the queries of the list one after the other. In a
collection whose texts and numbers are distinct none of them clashes with one
before it, so each is added as it is, and the collection is read back as itself.
-/

namespace MetricQuery

open Json (ReadsBack Reads)

namespace SavedQuery

/-- The words of a saved query are read back if its number is an integer of 64 bits. -/
theorem readsBack_toJson {saved : SavedQuery} (fits : Word.IsSigned saved.id) :
    ReadsBack saved.toJson := by
  have text : ∀ key value : String, ReadsBack (Json.member key (Json.string value)) :=
    fun key value => Json.readsBack_member key (Json.readsBack_string value)
  have id := Json.readsBack_member "id" (Json.readsBack_integer fits)
  have metrics := Metric.readsBack_list saved.metrics
  have dimensions := Dimension.readsBack_list saved.dimensions
  refine Json.readsBack_object ?_
  simp only [List.forall_mem_cons]
  exact ⟨id, text _ _, Json.readsBack_member _ metrics, Json.readsBack_member _ dimensions,
    text _ _, text _ _, text _ _, nofun⟩

/-- A saved query with a number of 64 bits is read back where an object, a list in
it, and an object in that may be opened. -/
theorem reads_toJson {depth : Nat} (room : 3 < depth) {saved : SavedQuery}
    (fits : Word.IsSigned saved.id) : Reads SavedQuery.reader depth saved.toJson saved := by
  obtain ⟨id, query, metrics, dimensions, timestamp, table, function⟩ := saved
  have inside : 2 < depth - 1 := by omega
  have readsMetrics := Metric.reads_list inside metrics
  have readsDimensions := Dimension.reads_list inside dimensions
  -- The draft behind each member holds what was read up to it.
  have first := (Json.reads_integer (depth - 1) fits).fill
    fun id => Draft.mk (some id) none none none none none none
  have second := (Json.reads_string (depth - 1) query).fill
    fun query => Draft.mk (some id) (some query) none none none none none
  have third := readsMetrics.fill
    fun metrics => Draft.mk (some id) (some query) (some metrics) none none none none
  have fourth := readsDimensions.fill
    fun dimensions => Draft.mk (some id) (some query) (some metrics) (some dimensions) none none none
  have fifth := (Json.reads_string (depth - 1) timestamp).fill fun timestamp =>
    Draft.mk (some id) (some query) (some metrics) (some dimensions) (some timestamp) none none
  have sixth := (Json.reads_string (depth - 1) table).fill fun table =>
    Draft.mk (some id) (some query) (some metrics) (some dimensions) (some timestamp) (some table)
      none
  let last : Draft := ⟨some id, some query, some metrics, some dimensions, some timestamp,
    some table, some function⟩
  have seventh := (Json.reads_string (depth - 1) function).fill fun function =>
    Draft.mk (some id) (some query) (some metrics) (some dimensions) (some timestamp) (some table)
      (some function)
  have finished : last.finish = .ok ⟨id, query, metrics, dimensions, timestamp, table, function⟩ :=
    rfl
  refine Json.reads_record (by omega) ?_ finished
  exact .member _ rfl rfl first (.member _ rfl rfl second (.member _ rfl rfl third
    (.member _ rfl rfl fourth (.member _ rfl rfl fifth (.member _ rfl rfl sixth
      (.member _ rfl rfl seventh (.done last)))))))

end SavedQuery

namespace SavedQueries

variable {saved : SavedQueries}

/-- The text of a collection is read as the list of its queries. -/
theorem decode_toText (fit : ∀ record ∈ saved.records, Word.IsSigned record.id) :
    Json.decode (Json.readList SavedQuery.reader) saved.toText = .ok saved.records := by
  refine Json.decode_render (Json.readsBack_list ?_) (Json.reads_list (by decide) ?_ ?_)
  · exact List.forall_mem_map.mpr fun record member => SavedQuery.readsBack_toJson (fit record member)
  · exact fun record member => SavedQuery.reads_toJson (by decide) (fit record member)
  · exact fun record _ => Json.startsValue_object _

/-- A list of queries that clash neither by text nor by number is read as it is. -/
theorem ofText_of_isDistinct {text : String}
    (decoded : Json.decode (Json.readList SavedQuery.reader) text = .ok saved.records)
    (distinct : saved.IsDistinct) : ofText text = .ok saved := by
  have all : saveAll {} saved.records = some saved := saveAll_distinct distinct
  rw [ofText, decoded]
  simp only [all]

/-- A collection with distinct texts and distinct numbers of 64 bits is read back
from its text, each query as it is and in the same order. -/
theorem ofText_toText (saved : SavedQueries)
    (fit : ∀ record ∈ saved.records, Word.IsSigned record.id)
    (queries : (saved.records.map SavedQuery.query).Nodup)
    (ids : (saved.records.map SavedQuery.id).Nodup) : ofText saved.toText = .ok saved :=
  ofText_of_isDistinct (decode_toText fit) ⟨queries, ids⟩

/-- Two queries of control characters, quotes, and letters of several words, under
the smallest and the largest number, with fields of every shape. -/
def awkward : SavedQueries where
  records := [
    { id := -9223372036854775808
      query := "\x00\x1f\t\n\"\\\x7f 利润 😀"
      metrics := [⟨"a\"b", "", .currency⟩, ⟨"a\"b", "\\", .string⟩]
      dimensions := [⟨"region", "\r", some .percentage⟩, ⟨"", "/", none⟩]
      timestamp := "", table := "SALES", function := "Sum" },
    { id := 9223372036854775807
      query := ""
      metrics := [], dimensions := []
      timestamp := "soon", table := "", function := "," }]

/-- The awkward queries are read back from their text. -/
theorem awkward_reads_back :
    (∀ record ∈ awkward.records, Word.IsSigned record.id) ∧
      (awkward.records.map SavedQuery.query).Nodup ∧ (awkward.records.map SavedQuery.id).Nodup ∧
        ofText awkward.toText = .ok awkward := by
  have fit : ∀ record ∈ awkward.records, Word.IsSigned record.id := by decide
  have queries : (awkward.records.map SavedQuery.query).Nodup := by decide
  have ids : (awkward.records.map SavedQuery.id).Nodup := by decide
  exact ⟨fit, queries, ids, ofText_toText awkward fit queries ids⟩

end SavedQueries

end MetricQuery
