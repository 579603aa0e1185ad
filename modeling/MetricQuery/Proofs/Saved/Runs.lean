import MetricQuery.Proofs.Saved
import MetricQuery.Saved.Json

/-!
# Collections in use

A collection is used by adding queries, removing them by their number, and reading a
text in its place. Such a run stops early only if a number is taken while the largest
one there is has been reached. In every other run the collection stays distinct, by
text and by number, in whatever order its queries come and go: removing can lower the
largest number, and reading starts anew.

The facts about one step rely on this. A query is found by its number only, so
removing leaves out that one and keeps the others. A text is read as the first query
of each text in its list.
-/

namespace MetricQuery.SavedQueries

variable {saved : SavedQueries}

/-- What is done with a collection. -/
inductive Operation where
  /-- Add a query. -/
  | save (record : SavedQuery)
  /-- Remove the query with a number. -/
  | remove (id : Int)
  /-- Put the collection that a text holds in its place, if the text holds one. -/
  | read (text : String)

/-- The collection after an operation, unless numbers run out. -/
def after? (saved : SavedQueries) : Operation → Option SavedQueries
  | .save record =>
      match saved.save record with
      | .added more => some more
      | .known => some saved
      | .exhausted => none
  | .remove id => some (saved.remove id)
  | .read text =>
      match ofText text with
      | .ok read => some read
      | .error (.notSaved _) => some saved
      | .error .exhausted => none

/-- The collection after several operations, unless numbers run out. -/
def afterAll? (saved : SavedQueries) (operations : List Operation) : Option SavedQueries :=
  operations.foldlM after? saved

/-- Whether there is room for what an operation adds. A text that is read starts
from the empty collection. -/
def HasRoomFor (saved : SavedQueries) : Operation → Prop
  | .save record => saved.HasRoom record
  | .remove _ => True
  | .read text =>
      match Json.decode (Json.readList SavedQuery.reader) text with
      | .ok records => HasRoomForAll {} records
      | .error _ => True

instance (saved : SavedQueries) : DecidablePred saved.HasRoomFor
  | .save record => inferInstanceAs (Decidable (saved.HasRoom record))
  | .remove _ => inferInstanceAs (Decidable True)
  | .read text =>
      match read : Json.decode (Json.readList SavedQuery.reader) text with
      | .ok records =>
          decidable_of_iff (HasRoomForAll {} records) (by simp only [HasRoomFor, read])
      | .error _ => decidable_of_iff True (by simp only [HasRoomFor, read])

/-- Whether there is room at each step of several operations. -/
def HasRoomThroughout : SavedQueries → List Operation → Prop
  | _, [] => True
  | saved, operation :: later =>
      saved.HasRoomFor operation ∧ ∀ next ∈ saved.after? operation, next.HasRoomThroughout later

instance : (saved : SavedQueries) → (operations : List Operation) →
    Decidable (saved.HasRoomThroughout operations)
  | _, [] => inferInstanceAs (Decidable True)
  | _, _ :: later =>
      have : DecidablePred fun next : SavedQueries => next.HasRoomThroughout later :=
        fun next => instDecidableHasRoomThroughout next later
      inferInstanceAs (Decidable (_ ∧ _))

/-- A list of queries is read as the first one of each text, in order and up to their
numbers. Where the numbers of these are distinct, they are read as they are. -/
theorem ofText_of_decode {text : String} {records : List SavedQuery}
    (decoded : Json.decode (Json.readList SavedQuery.reader) text = .ok records)
    (room : HasRoomForAll {} records) :
    ∃ read, ofText text = .ok read ∧ read.IsDistinct ∧
      List.Forall₂ IsRenumbered read.records (firstOfEachText records) ∧
        (((firstOfEachText records).map SavedQuery.id).Nodup →
          read.records = firstOfEachText records) := by
  obtain ⟨added, given, distinct, renumbered, unchanged⟩ := saveAll_spec isDistinct_empty room
  have all : newTo {} records = records := List.filter_eq_self.mpr fun _ _ => rfl
  rw [all] at renumbered unchanged
  refine ⟨⟨added⟩, ?_, distinct, renumbered, unchanged⟩
  rw [ofText, decoded]
  simp only [given]
  rfl

/-- A collection stays distinct under an operation for which there is room. -/
theorem IsDistinct.after (distinct : saved.IsDistinct) {operation : Operation}
    (room : saved.HasRoomFor operation) :
    ∃ next, saved.after? operation = some next ∧ next.IsDistinct := by
  cases operation with
  | save record =>
    by_cases known : record.query ∈ saved.records.map SavedQuery.query
    · exact ⟨saved, by rw [after?, save_known known], distinct⟩
    · obtain ⟨free, isFree, _, added⟩ := save_new known room
      have more : IsDistinct ⟨saved.records ++ [{ record with id := free }]⟩ :=
        distinct.concat known isFree
      exact ⟨_, by rw [after?, added], more⟩
  | remove id => exact ⟨saved.remove id, rfl, distinct.remove id⟩
  | read text =>
    cases decoded : Json.decode (Json.readList SavedQuery.reader) text with
    | error fault => exact ⟨saved, by simp only [after?, ofText, decoded], distinct⟩
    | ok records =>
      have enough : HasRoomForAll {} records := by simpa only [HasRoomFor, decoded] using room
      obtain ⟨read, reads, readDistinct, _⟩ := ofText_of_decode decoded enough
      exact ⟨read, by rw [after?, reads], readDistinct⟩

/-- A collection stays distinct along operations for each of which there is room. -/
theorem IsDistinct.afterAll (distinct : saved.IsDistinct) {before later : List Operation}
    (room : saved.HasRoomThroughout (before ++ later)) :
    ∃ last, saved.afterAll? before = some last ∧ last.IsDistinct := by
  induction before generalizing saved with
  | nil => exact ⟨saved, rfl, distinct⟩
  | cons operation rest inductionHypothesis =>
    obtain ⟨here, behind⟩ := room
    obtain ⟨next, step, nextDistinct⟩ := distinct.after here
    obtain ⟨last, run, lastDistinct⟩ := inductionHypothesis nextDistinct (behind next step)
    refine ⟨last, ?_, lastDistinct⟩
    rw [afterAll?, List.foldlM_cons, step]
    exact run

/-- In every run from the empty collection in which numbers do not run out, texts
and numbers are distinct after each step. There a query with a known text changes
nothing, and one with a new text is put at the end, under its own number if that is
free and under another free one if not. Removing by a number leaves out the query that is
found by it. A text is read as the first query of each text in its list, up to
numbers that clash. -/
theorem distinct_in_every_run (before later : List Operation)
    (room : HasRoomThroughout {} (before ++ later)) :
    ∃ saved, afterAll? {} before = some saved ∧
      (saved.records.map SavedQuery.query).Nodup ∧ (saved.records.map SavedQuery.id).Nodup ∧
      (∀ record, record.query ∈ saved.records.map SavedQuery.query →
        saved.save record = .known ∧ saved.after? (.save record) = some saved) ∧
      (∀ record, record.query ∉ saved.records.map SavedQuery.query → saved.HasRoom record →
        ∃ free ∉ saved.records.map SavedQuery.id,
          (record.id ∉ saved.records.map SavedQuery.id → free = record.id) ∧
            saved.save record = .added ⟨saved.records ++ [{ record with id := free }]⟩) ∧
      (∀ id, (saved.remove id).records =
        saved.records.filter fun record => saved.get? id ≠ some record) ∧
      ∀ text records, Json.decode (Json.readList SavedQuery.reader) text = .ok records →
        HasRoomForAll {} records → ∃ read, ofText text = .ok read ∧
          List.Forall₂ IsRenumbered read.records (firstOfEachText records) ∧
            (((firstOfEachText records).map SavedQuery.id).Nodup →
              read.records = firstOfEachText records) := by
  obtain ⟨saved, run, distinct⟩ := isDistinct_empty.afterAll room
  refine ⟨saved, run, distinct.queries, distinct.ids, ?known, ?new, distinct.records_remove, ?read⟩
  case known =>
    intro record known
    exact ⟨save_known known, by rw [after?, save_known known]⟩
  case new => exact fun record unknown enough => save_new unknown enough
  case read =>
    intro text records decoded enough
    obtain ⟨read, reads, _, firsts⟩ := ofText_of_decode decoded enough
    exact ⟨read, reads, firsts⟩

/-- Taken numbers are replaced, also where all are negative, and a text with a repeated query and a repeated number is read. -/
theorem distinct_after_clashes :
    let query : Int → String → SavedQuery := fun id text => ⟨id, text, [], [], "", "sales", "SUM"⟩
    let text := "[[5,\"a\",[],[],\"\",\"sales\",\"SUM\"],[5,\"b\",[],[],\"\",\"sales\",\"SUM\"]," ++
      "[9,\"a\",[],[],\"\",\"\",\"\"]]"
    let run := [.save (query (-3) "a"), .save (query (-3) "b"), .save (query 7 "b"), .remove (-2),
      .save (query 8 "b"), .save (query 8 "c"), .read text]
    HasRoomThroughout {} (run ++ [.save (query 5 "c")]) ∧
      ∃ saved, afterAll? {} run = some saved ∧
        (saved.records.map SavedQuery.query).Nodup ∧ (saved.records.map SavedQuery.id).Nodup ∧
          saved = ⟨[query 5 "a", query 6 "b"]⟩ := by
  intro query text run
  have room : HasRoomThroughout {} (run ++ [.save (query 5 "c")]) := by decide +kernel
  obtain ⟨saved, reached, queries, ids, _⟩ := distinct_in_every_run run [.save (query 5 "c")] room
  have value : afterAll? {} run = some ⟨[query 5 "a", query 6 "b"]⟩ := by decide +kernel
  exact ⟨room, saved, reached, queries, ids, Option.some.inj (reached.symm.trans value)⟩

end MetricQuery.SavedQueries
