import MetricQuery.Proofs.Json.Value
import MetricQuery.Proofs.Saved.Runs

/-!
# Numbers that run out

A taken number is replaced by the one after the largest number in the collection. So one
query with the largest number there is makes every later clash fail, however many other
numbers are free, and also where the clash is about a small one. This is the only way to
fail: with a number of its own a query is added in any case.

Every operation adds some queries one after the other, to the collection itself, to what
is left of it, or to the empty one. So it goes through exactly where there is room for
these queries, and what is known of runs with room holds of every collection that was
reached.

A replaced number is at most one above all numbers so far. The largest number therefore
grows by at most one with each query, and a run in which the numbers from outside leave as
much space above them as there are queries never stops. Moments of the calendar leave more
space than any collection could use.
-/

namespace MetricQuery.SavedQueries

variable {saved : SavedQueries} {record : SavedQuery}

/-! ## Adding and room -/

/-- A query is tried before the others, and where there is no room for it nothing comes of all. -/
theorem saveAll_cons (later : List SavedQuery) :
    saved.saveAll (record :: later) =
      if saved.HasRoom record then (saved.keep record).saveAll later else none := by
  have full : saved.save record = .exhausted ↔ ¬ saved.HasRoom record := save_eq_exhausted_iff
  cases outcome : saved.save record <;> simp_all [saveAll, keep]

/-- Where several queries were added there was room for them. -/
theorem hasRoomForAll_of_saveAll {records : List SavedQuery} {last : SavedQueries}
    (added : saved.saveAll records = some last) : saved.HasRoomForAll records := by
  induction records generalizing saved with
  | nil => trivial
  | cons record later inductionHypothesis =>
    rw [saveAll_cons] at added
    split at added
    · rename_i here
      exact ⟨here, inductionHypothesis added⟩
    · cases added

/-- The queries that an operation adds, one after the other. -/
def Operation.given : Operation → List SavedQuery
  | .save record => [record]
  | .remove _ => []
  | .read text =>
      match Json.decode (Json.readList SavedQuery.reader) text with
      | .ok records => records
      | .error _ => []

/-- The collection to which an operation adds. -/
def base (saved : SavedQueries) : Operation → SavedQueries
  | .save _ => saved
  | .remove id => saved.remove id
  | .read text =>
      match Json.decode (Json.readList SavedQuery.reader) text with
      | .ok _ => {}
      | .error _ => saved

/-- An operation adds its queries to its collection. -/
theorem after?_eq_saveAll (operation : Operation) :
    saved.after? operation = (saved.base operation).saveAll operation.given := by
  cases operation with
  | save record =>
    cases outcome : saved.save record <;>
      simp only [after?, base, Operation.given, saveAll, outcome]
  | remove id => rfl
  | read text =>
    simp only [after?, base, Operation.given, ofText]
    cases Json.decode (Json.readList SavedQuery.reader) text with
    | error fault => rfl
    | ok records => cases added : saveAll {} records <;> simp only [added]

/-- There is room for an operation where there is room for its queries. -/
theorem hasRoomFor_of_base {operation : Operation}
    (room : (saved.base operation).HasRoomForAll operation.given) : saved.HasRoomFor operation := by
  cases operation with
  | save record => exact room.1
  | remove id => trivial
  | read text =>
    simp only [HasRoomFor, base, Operation.given] at room ⊢
    cases decoded : Json.decode (Json.readList SavedQuery.reader) text with
    | error fault => trivial
    | ok records => simpa only [decoded] using room

/-- Where a run came to its end there was room at each step. -/
theorem hasRoomThroughout_of_afterAll? {operations : List Operation} {last : SavedQueries}
    (run : saved.afterAll? operations = some last) : saved.HasRoomThroughout operations := by
  induction operations generalizing saved with
  | nil => trivial
  | cons operation later inductionHypothesis =>
    rw [afterAll?, List.foldlM_cons] at run
    obtain ⟨next, step, rest⟩ := Option.bind_eq_some_iff.mp run
    constructor
    · exact hasRoomFor_of_base (hasRoomForAll_of_saveAll (after?_eq_saveAll operation ▸ step))
    · rintro other same
      obtain rfl := Option.some.inj (step.symm.trans same)
      exact inductionHypothesis rest

/-- A collection that was reached from the empty one is distinct. -/
theorem isDistinct_of_reached {operations : List Operation}
    (reached : afterAll? {} operations = some saved) : saved.IsDistinct := by
  have room : HasRoomThroughout {} (operations ++ []) := by
    rw [List.append_nil]
    exact hasRoomThroughout_of_afterAll? reached
  obtain ⟨last, run, distinct⟩ := isDistinct_empty.afterAll room
  obtain rfl := Option.some.inj (reached.symm.trans run)
  exact distinct

/-! ## Numbers below a bound -/

/-- Whether all numbers are at most a bound. -/
def IsWithin (bound : Int) (records : List SavedQuery) : Prop :=
  ∀ record ∈ records, record.id ≤ bound

/-- A number that is given is at most one above all others. -/
theorem freeId?_le {bound id free : Int} (within : IsWithin bound saved.records)
    (own : id ≤ bound) (given : saved.freeId? id = some free) : free ≤ bound + 1 := by
  rw [freeId?] at given
  split at given
  · rename_i present
    obtain ⟨owner, member, _⟩ := List.mem_map.mp ((get?_isSome_iff id).mp present)
    obtain ⟨largest, taken, _, next⟩ := nextId?_spec (List.ne_nil_of_mem member)
    obtain ⟨holder, held, rfl⟩ := List.mem_map.mp taken
    have below := within holder held
    rw [next] at given
    split at given
    · obtain rfl := Option.some.inj given
      omega
    · cases given
  · obtain rfl := Option.some.inj given
    omega

/-- One query more raises a bound of all numbers by at most one. -/
theorem IsWithin.keep {bound : Int} (within : IsWithin bound saved.records)
    (own : record.id ≤ bound) : IsWithin (bound + 1) (saved.keep record).records := by
  have before : IsWithin (bound + 1) saved.records :=
    fun other member => Int.le_add_one (within other member)
  rw [SavedQueries.keep]
  cases outcome : saved.save record with
  | known => exact before
  | exhausted => exact before
  | added more =>
    obtain ⟨_, free, given, rfl⟩ := save_eq_added outcome
    exact List.forall_mem_append.mpr
      ⟨before, List.forall_mem_singleton.mpr (freeId?_le within own given)⟩

/-- There is room where all numbers are below the largest one there is. -/
theorem IsWithin.hasRoom {bound : Int} (within : IsWithin bound saved.records)
    (enough : bound < largestId) : saved.HasRoom record :=
  .inr (.inr fun other member => Int.lt_of_le_of_lt (within other member) enough)

/-- Queries are added where there is a number for each above the bound of all. -/
theorem IsWithin.saveAll {bound : Int} {records : List SavedQuery}
    (within : IsWithin bound saved.records) (given : IsWithin bound records)
    (enough : bound + records.length ≤ largestId) :
    ∃ last, saved.saveAll records = some last ∧
      IsWithin (bound + records.length) last.records := by
  -- Each query moves the bound up by one and needs one number less behind it.
  induction records generalizing saved bound with
  | nil => exact ⟨saved, rfl, by simpa using within⟩
  | cons record later inductionHypothesis =>
    obtain ⟨own, others⟩ := List.forall_mem_cons.mp given
    rw [List.length_cons, Nat.cast_add_one] at enough ⊢
    have room : saved.HasRoom record := within.hasRoom (by omega)
    have above : IsWithin (bound + 1) later :=
      fun other member => Int.le_add_one (others other member)
    obtain ⟨last, added, result⟩ := inductionHypothesis (within.keep own) above (by omega)
    refine ⟨last, by rw [saveAll_cons, if_pos room, added], ?_⟩
    rwa [Int.add_assoc, Int.add_comm 1] at result

/-- An operation goes through where there is a number for each of its queries above the
bound of all. -/
theorem IsWithin.after {bound : Int} {operation : Operation}
    (within : IsWithin bound saved.records) (given : IsWithin bound operation.given)
    (enough : bound + operation.given.length ≤ largestId) :
    ∃ next, saved.after? operation = some next ∧
      IsWithin (bound + operation.given.length) next.records := by
  have start : IsWithin bound (saved.base operation).records := by
    cases operation with
    | save record => exact within
    | remove id => exact fun record member => within record (List.mem_of_mem_eraseP member)
    | read text =>
      rw [base]
      split
      · exact List.forall_mem_nil _
      · exact within
  rw [after?_eq_saveAll]
  exact start.saveAll given enough

/-- A run comes to its end where there is a number for each query that is given above the
bound of all. -/
theorem IsWithin.afterAll {bound : Int} {operations : List Operation}
    (within : IsWithin bound saved.records)
    (given : IsWithin bound (operations.flatMap Operation.given))
    (enough : bound + (operations.flatMap Operation.given).length ≤ largestId) :
    ∃ last, saved.afterAll? operations = some last ∧
      IsWithin (bound + (operations.flatMap Operation.given).length) last.records := by
  induction operations generalizing saved bound with
  | nil => exact ⟨saved, rfl, by simpa using within⟩
  | cons operation later inductionHypothesis =>
    rw [List.flatMap_cons] at given
    rw [List.flatMap_cons, List.length_append, Nat.cast_add, ← Int.add_assoc] at enough ⊢
    obtain ⟨here, behind⟩ := List.forall_mem_append.mp given
    obtain ⟨next, step, nextWithin⟩ := within.after here (by omega)
    have above : IsWithin (bound + operation.given.length) (later.flatMap Operation.given) :=
      fun other member => Int.le_trans (behind other member) (by omega)
    obtain ⟨last, run, result⟩ := inductionHypothesis nextWithin above enough
    refine ⟨last, ?_, result⟩
    rw [afterAll?, List.foldlM_cons, step]
    exact run

/-! ## Queries with new texts -/

/-- In every collection that is reached, a query with a new text is added exactly unless
its number is taken while another query, or the same one, has the largest number there is.
Then it stands at the end under a free number, which is its own if that is free and fits a
word if its own does, and numbers stay distinct. There is such a number wherever the
queries given so far leave one above theirs for each of them and one more. -/
theorem new_text_in_every_run {operations : List Operation} {saved : SavedQueries}
    (reached : afterAll? {} operations = some saved) {record : SavedQuery}
    (new : record.query ∉ saved.records.map SavedQuery.query) :
    (saved.save record = .exhausted ↔
        record.id ∈ saved.records.map SavedQuery.id ∧
          ∃ other ∈ saved.records, largestId ≤ other.id) ∧
      (saved.save record ≠ .exhausted →
        ∃ free ∉ saved.records.map SavedQuery.id,
          saved.save record = .added ⟨saved.records ++ [{ record with id := free }]⟩ ∧
            (free = record.id ↔ record.id ∉ saved.records.map SavedQuery.id) ∧
              (Word.IsSigned record.id → Word.IsSigned free) ∧
                ((saved.records ++ [{ record with id := free }]).map SavedQuery.id).Nodup) ∧
      ∀ bound, IsWithin bound (operations.flatMap Operation.given) →
        bound + (operations.flatMap Operation.given).length < largestId →
          saved.save record ≠ .exhausted := by
  have distinct := isDistinct_of_reached reached
  refine ⟨?fails, ?free, ?enough⟩
  case fails =>
    simp only [save_eq_exhausted_iff, HasRoom, new, false_or, not_or, not_not, not_forall,
      Int.not_lt, exists_prop]
  case free =>
    intro succeeds
    obtain ⟨more, outcome⟩ : ∃ more, saved.save record = .added more := by
      have room : saved.HasRoom record :=
        not_not.mp fun full => succeeds (save_eq_exhausted_iff.mpr full)
      obtain ⟨free, _, _, added⟩ := save_new new room
      exact ⟨_, added⟩
    obtain ⟨_, free, given, rfl⟩ := save_eq_added outcome
    obtain ⟨isFree, own, range⟩ := freeId?_eq_some given
    refine ⟨free, isFree, outcome, own, ?_, nodup_map_concat distinct.ids isFree⟩
    rintro ⟨least, most⟩
    rcases range with rfl | ⟨above, below⟩
    · exact ⟨least, most⟩
    · exact ⟨by omega, below⟩
  case enough =>
    intro bound given enough
    have start : IsWithin bound (SavedQueries.records {}) := List.forall_mem_nil _
    obtain ⟨last, run, within⟩ := start.afterAll given (by omega)
    obtain rfl := Option.some.inj (reached.symm.trans run)
    exact fun failed => save_eq_exhausted_iff.mp failed (within.hasRoom enough)

/-- A query with the largest number leaves room for one with a number of its own. -/
theorem new_text_behind_largest :
    let query : Int → String → SavedQuery := fun id text => ⟨id, text, [], [], "", "sales", "SUM"⟩
    let run := [.save (query 3 "a"), .save (query 3 "b"), .remove 3,
      .save (query 9223372036854775807 "c")]
    ∃ saved, afterAll? {} run = some saved ∧
      "d" ∉ saved.records.map SavedQuery.query ∧ saved.save (query 3 "d") ≠ .exhausted ∧
        saved.save (query 3 "d") =
          .added ⟨[query 4 "b", query 9223372036854775807 "c", query 3 "d"]⟩ := by
  intro query run
  let saved : SavedQueries := ⟨[query 4 "b", query 9223372036854775807 "c"]⟩
  have reached : afterAll? {} run = some saved := by decide +kernel
  have new : (query 3 "d").query ∉ saved.records.map SavedQuery.query := by decide
  have untaken : (query 3 "d").id ∉ saved.records.map SavedQuery.id := by decide
  obtain ⟨fails, free, _⟩ := new_text_in_every_run reached new
  have succeeds := mt fails.mp fun full => untaken full.1
  obtain ⟨number, _, added, own, _⟩ := free succeeds
  obtain rfl := own.mpr untaken
  exact ⟨saved, reached, new, succeeds, added⟩

/-- A taken number finds no other one behind the largest number there is, whether the
queries are added one by one or read from a text. -/
theorem no_number_behind_largest :
    let query : Int → String → SavedQuery := fun id text => ⟨id, text, [], [], "", "sales", "SUM"⟩
    let run := [.save (query (-9223372036854775808) "a"), .save (query 9223372036854775807 "b")]
    (∃ saved, afterAll? {} run = some saved ∧ "c" ∉ saved.records.map SavedQuery.query ∧
        saved.save (query 9223372036854775807 "c") = .exhausted) ∧
      ofText ("[[9223372036854775807,\"b\",[],[],\"\",\"sales\",\"SUM\"]," ++
        "[9223372036854775807,\"c\",[],[],\"\",\"sales\",\"SUM\"]]") = .error .exhausted := by
  intro query run
  constructor
  · exact ⟨⟨[query (-9223372036854775808) "a", query 9223372036854775807 "b"]⟩,
      by decide +kernel, by decide, by decide +kernel⟩
  · decide +kernel

end MetricQuery.SavedQueries
