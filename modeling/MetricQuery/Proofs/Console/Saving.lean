import MetricQuery.Proofs.Console
import MetricQuery.Proofs.Decimal.Reading
import MetricQuery.Proofs.Json.Value
import MetricQuery.Proofs.Saved
import MetricQuery.Proofs.Text.Blank

/-!
# Saving and calling back

A query is saved under the number of the moment, and the answer names this number. The
collection keeps it under the same number unless another query has it already, which
happens when a clock stands still or goes back, and when an earlier query was moved on
to this number. Then the query is kept under the number after the largest one, which the
answer does not name.

Under the number where it is kept, the query can be called back in every case: numbers
stay distinct in every run, a number that is printed is read as itself, and so the query
that is run or deleted by it is the one that was saved.
-/

namespace MetricQuery

open Text (isBlank)

namespace Console

/-! ## Numbers in lines -/

/-- The digits of a number have its value. -/
theorem digitsValue?_digitsOf (n : Nat) : digitsValue? (Decimal.digitsOf n) = some n := by
  have digits : (Decimal.digitsOf n).all Text.isDigit = true :=
    List.all_eq_true.mpr fun _ => Decimal.isDigit_of_mem_digitsOf
  have value : (Decimal.digitsOf n).foldl (fun value c => 10 * value + (c.toNat - '0'.toNat)) 0 = n :=
    Decimal.digitsValue_digitsOf n
  have some : ((Decimal.digitsOf n).isEmpty || !(Decimal.digitsOf n).all Text.isDigit) = false := by
    simp [Decimal.digitsOf_ne_nil, digits]
  rw [digitsValue?, some, if_neg Bool.false_ne_true, value]

/-- A number is written with a sign if it is negative, and with its digits. -/
theorem toList_toString (number : Int) : (toString number).toList =
    if number < 0 then '-' :: Decimal.digitsOf number.natAbs else Decimal.digitsOf number.natAbs := by
  cases number with
  | ofNat n => simp [toString, Int.repr, Nat.repr, Decimal.digitsOf]
  | negSucc n => simp [toString, Int.repr, Nat.repr, Decimal.digitsOf]

/-- No blank stands in a number. -/
theorem visible_toString (number : Int) : ∀ c ∈ (toString number).toList, isBlank c = false := by
  have digits : ∀ c ∈ Decimal.digitsOf number.natAbs, isBlank c = false :=
    fun _ member => Text.isBlank_of_isDigit (Decimal.isDigit_of_mem_digitsOf member)
  rw [toList_toString]
  split
  · exact List.forall_mem_cons.mpr ⟨by decide, digits⟩
  · exact digits

/-- A number that fits a word is read back. -/
theorem integer?_toString {number : Int} (fits : Word.IsSigned number) :
    integer? (toString number) = some number := by
  obtain ⟨least, most⟩ := fits
  rw [integer?, toList_toString]
  by_cases negative : number < 0
  · have small : number.natAbs ≤ Word.largestNegative := by omega
    have same : -(number.natAbs : Int) = number := by omega
    rw [if_pos negative]
    simp only [digitsValue?_digitsOf, Option.filter_some, small, decide_true, if_true]
    exact congrArg some same
  · have small : number.natAbs ≤ Word.largestSigned := by omega
    have same : (number.natAbs : Int) = number := by omega
    obtain ⟨digit, later, shape⟩ := List.exists_cons_of_ne_nil (Decimal.digitsOf_ne_nil number.natAbs)
    have isDigit : Text.isDigit digit = true :=
      Decimal.isDigit_of_mem_digitsOf (shape ▸ List.mem_cons_self)
    have value := digitsValue?_digitsOf number.natAbs
    rw [if_neg negative, shape] at *
    split
    · rename_i minus
      obtain ⟨rfl, rfl⟩ := List.cons.inj minus
      exact absurd isDigit (by decide)
    · rename_i plus
      obtain ⟨rfl, rfl⟩ := List.cons.inj plus
      exact absurd isDigit (by decide)
    · simp only [value, Option.filter_some, small, decide_true, if_true]
      exact congrArg some same

/-- A command is read up to its first blank, and its argument behind it. -/
theorem splitBlank_append {name : List Char} (visible : ∀ c ∈ name, isBlank c = false)
    (argument : List Char) : splitBlank (name ++ ' ' :: argument) = (name, some argument) := by
  induction name with
  | nil => rfl
  | cons c name inductionHypothesis =>
    obtain ⟨here, behind⟩ := List.forall_mem_cons.mp visible
    simp [splitBlank, here, inductionHypothesis behind]

/-- A line that asks for something about a number is read as the command and the number. -/
theorem ofText_numbered {name text : String} (visible : name.toList.any isBlank = false)
    (number : Int) (written : text.toList = ':' :: (name.toList ++ ' ' :: (toString number).toList)) :
    Line.ofText text = .command name (toString number) := by
  have letters : ∀ c ∈ name.toList, isBlank c = false :=
    fun c member => Bool.eq_false_iff.mpr (List.any_eq_false.mp visible c member)
  have split := splitBlank_append letters (toString number).toList
  have trimmed := Text.trim_visible (visible_toString number)
  simp only [Line.ofText, written, split, Option.getD_some, trimmed, String.ofList_toList]

/-! ## Calling back -/

variable {console : Console}

/-- Whether a number stands for a saved query in a console: the query is found under the
number, the command that runs the number loads and runs it, and the command that deletes
the number drops it and no other. -/
structure CallsBack (console : Console) (number : Int) (record : SavedQuery) : Prop where
  /-- The query is found under the number. -/
  found : console.saved.get? number = some record
  /-- Running the number loads the query. -/
  run : ∀ moment, console.handle moment (":run " ++ toString number) =
    (console.perform (.loadSaved record)).runCurrent
  /-- Deleting the number leaves all other queries. -/
  delete : ∀ moment, console.handle moment (":delete " ++ toString number) =
    ({ console with saved := ⟨console.saved.records.filter fun other => other ≠ record⟩ },
      .say ("deleted " ++ toString number))

/-- The argument that writes a number names the query with this number. -/
theorem savedNamed?_toString {number : Int} (fits : Word.IsSigned number) :
    console.savedNamed? (toString number) = console.saved.get? number := by
  rw [savedNamed?, integer?_toString fits, Option.bind_some]

/-- The line that runs a number is a command about it. -/
theorem ofText_run (number : Int) :
    Line.ofText (":run " ++ toString number) = .command "run" (toString number) :=
  ofText_numbered rfl number String.toList_append

/-- The line that deletes a number is a command about it. -/
theorem ofText_delete (number : Int) :
    Line.ofText (":delete " ++ toString number) = .command "delete" (toString number) :=
  ofText_numbered rfl number String.toList_append

/-- Where numbers are distinct, a query that is found by a number is called back by it. -/
theorem callsBack_of_get? (distinct : console.saved.IsDistinct) {number : Int}
    (fits : Word.IsSigned number) {record : SavedQuery} (found : console.saved.get? number = some record) :
    console.CallsBack number record := by
  have named : console.savedNamed? (toString number) = some record :=
    (savedNamed?_toString fits).trans found
  refine ⟨found, fun moment => ?_, fun moment => ?_⟩
  · rw [handle, ofText_run]
    change console.runSaved (toString number) = _
    rw [runSaved, named]
  · have owns := ((distinct.get?_eq_some_iff number).mp found).2
    have others : console.saved.remove number =
        ⟨console.saved.records.filter fun other => other ≠ record⟩ := by
      refine congrArg SavedQueries.mk ((distinct.records_remove number).trans ?_)
      simp only [found, ne_eq, Option.some.injEq, eq_comm]
    rw [handle, ofText_delete]
    change console.deleteSaved (toString number) = _
    rw [deleteSaved, named]
    simp only [owns, others]

/-! ## Saving -/

/-- A query is made with the text of its session and the number of its moment. -/
theorem made_of_record? {session : Session} {moment : Instant} {record : SavedQuery}
    (made : session.record? moment = some record) :
    record.query = session.query ∧ record.id = moment.milliseconds := by
  rw [Session.record?] at made
  split at made
  · cases made
  · obtain rfl := Option.some.inj made
    exact ⟨rfl, rfl⟩

/-- What saving answers if it names a number: that of the moment, which the query of the
session is made with and added to the collection. -/
theorem record_of_saveQuery {moment : Instant} {number : Int}
    (answered : (console.saveQuery moment).2.lines = ["saved as " ++ toString number]) :
    ∃ record more, console.session.record? moment = some record ∧
      console.saved.save record = .added more ∧ record.id = number ∧
        (console.saveQuery moment).1 = { console with saved := more } := by
  rw [saveQuery] at answered ⊢
  split at answered
  case h_1 nothing => exact absurd (congrArg String.toList (List.cons.inj answered).1) (by simp)
  case h_2 record made =>
    split at answered
    case h_1 more added =>
      refine ⟨record, more, made, added, ?_, ?_⟩
      · exact Int.repr_inj.mp ((String.append_right_inj _).mp (List.cons.inj answered).1)
      · rfl
    case h_2 known => exact absurd (congrArg String.toList (List.cons.inj answered).1) (by simp)
    case h_3 full => cases answered

/-- Saved queries stay distinct, whatever a line does. -/
theorem Leads.isDistinct {next : Console} (leads : console.Leads next)
    (distinct : console.saved.IsDistinct) : next.saved.IsDistinct := by
  cases leads with
  | stays => exact distinct
  | acts => exact distinct
  | runs => exact distinct
  | saves _ added =>
    obtain ⟨unknown, free, given, rfl⟩ := SavedQueries.save_eq_added added
    exact distinct.concat unknown (SavedQueries.freeId?_eq_some given).1
  | drops id => exact distinct.remove id

/-- Saved queries stay distinct over any lines. -/
theorem isDistinct_handleAll (distinct : console.saved.IsDistinct)
    (lines : List (Instant × String)) : (console.handleAll lines).saved.IsDistinct := by
  induction lines generalizing console with
  | nil => exact distinct
  | cons line later inductionHypothesis =>
    exact inductionHypothesis ((handle_leads line.1 line.2).isDistinct distinct)

/-- After any lines, at any moments, to a console that starts with any catalog, let a line
that asks for saving be answered with a number. Then the query of the session is put at the
end of the saved ones, and it is called back by the number under which it is kept. That is
the number of the answer if and only if no query had it before. A query that had it is the
one that is called back by the number of the answer, and it has another text. -/
theorem saved_query_called_back (catalog : Catalog) (lines : List (Instant × String))
    (moment : Instant) (fits : Word.IsSigned moment.milliseconds) (text argument : String)
    (asks : Line.ofText text = .command "save" argument) (number : Int)
    (answered : ((handleAll { catalog := catalog } lines).handle moment text).2.lines =
      ["saved as " ++ toString number]) :
    let console := handleAll { catalog := catalog } lines
    let next := (console.handle moment text).1
    ∃ record, record.query = console.session.query ∧
      next.saved.records = console.saved.records ++ [record] ∧
      next.CallsBack record.id record ∧
      (record.id = number ↔ number ∉ console.saved.records.map SavedQuery.id) ∧
      ∀ other ∈ console.saved.records, other.id = number →
        next.CallsBack number other ∧ other.query ≠ console.session.query := by
  intro console next
  have saves : console.handle moment text = console.saveQuery moment := by
    rw [handle, asks]
    rfl
  have distinct : next.saved.IsDistinct :=
    (handle_leads moment text).isDistinct (isDistinct_handleAll SavedQueries.isDistinct_empty lines)
  obtain ⟨made, more, kept, added, rfl, after⟩ := record_of_saveQuery (saves ▸ answered)
  obtain ⟨unknown, free, given, rfl⟩ := SavedQueries.save_eq_added added
  obtain ⟨isFree, own, bounds⟩ := SavedQueries.freeId?_eq_some given
  have records : next.saved.records = console.saved.records ++ [{ made with id := free }] := by
    rw [show next = _ from (congrArg Prod.fst saves).trans after]
  obtain ⟨query, milliseconds⟩ := made_of_record? kept
  have ownFits : Word.IsSigned made.id := milliseconds ▸ fits
  have freeFits : Word.IsSigned free := by
    obtain ⟨least, most⟩ := ownFits
    rcases bounds with rfl | ⟨larger, small⟩
    · exact ⟨least, most⟩
    · exact ⟨by omega, small⟩
  refine ⟨{ made with id := free }, query, records, ?_, own, ?_⟩
  · refine callsBack_of_get? distinct freeFits ?_
    rw [distinct.get?_eq_some_iff, records]
    exact ⟨List.mem_append_right _ List.mem_cons_self, rfl⟩
  · intro other member number
    refine ⟨callsBack_of_get? distinct ownFits ?_, ?_⟩
    · rw [distinct.get?_eq_some_iff, records]
      exact ⟨List.mem_append_left _ member, number⟩
    · intro equal
      exact unknown (query ▸ equal ▸ List.mem_map_of_mem member)

/-- A number that was deleted is given again where the clock goes back. -/
theorem saved_query_called_back_after_deleting :
    let catalog : Catalog := ⟨[], [], .ofList [], {}⟩
    let lines : List (Instant × String) := [
      (⟨1, 0⟩, "SELECT id FROM sales"), (⟨1, 0⟩, ":save"), (⟨2, 0⟩, ":delete 1000"),
      (⟨2, 0⟩, "SELECT id FROM inventory")]
    let console := handleAll { catalog := catalog } lines
    let next := (console.handle ⟨1, 0⟩ ":save").1
    (console.handle ⟨1, 0⟩ ":save").2.lines = ["saved as 1000"] ∧
      ∃ record, record.query = "SELECT id FROM inventory" ∧ next.CallsBack 1000 record := by
  intro catalog lines console next
  have answered : (console.handle ⟨1, 0⟩ ":save").2.lines = ["saved as " ++ toString (1000 : Int)] := by
    decide +kernel
  obtain ⟨record, query, _, calledBack, same, _⟩ :=
    saved_query_called_back catalog lines ⟨1, 0⟩ (by decide) ":save" "" rfl 1000 answered
  have number : record.id = 1000 := same.mpr (by decide +kernel)
  exact ⟨answered, record, query.trans (by decide +kernel), number ▸ calledBack⟩

/-- Two queries saved at one moment are answered with one number, and it stands for the first. -/
theorem first_query_called_back :
    let catalog : Catalog := ⟨[], [], .ofList [], {}⟩
    let lines : List (Instant × String) := [
      (⟨1, 0⟩, "SELECT id FROM sales"), (⟨1, 0⟩, ":save"), (⟨1, 0⟩, "SELECT id FROM inventory")]
    let console := handleAll { catalog := catalog } lines
    let next := (console.handle ⟨1, 0⟩ ":save").1
    (console.handle ⟨1, 0⟩ ":save").2.lines = ["saved as 1000"] ∧
      console.session.query = "SELECT id FROM inventory" ∧
      (next.saved.get? 1000).map SavedQuery.query = some "SELECT id FROM sales" ∧
      (next.handle ⟨2, 0⟩ ":run 1000").1.session.query = "SELECT id FROM sales" ∧
      (next.handle ⟨2, 0⟩ ":delete 1000").1.saved.records.map SavedQuery.query =
        ["SELECT id FROM inventory"] := by
  intro catalog lines console next
  decide +kernel

end Console

end MetricQuery
