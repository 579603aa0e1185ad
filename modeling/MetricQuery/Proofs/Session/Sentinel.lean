import Mathlib.Data.List.TakeWhile
import MetricQuery.Proofs.Query.Clauses
import MetricQuery.Proofs.Session.Rerun

/-!
# Texts that stand for no statement

A text that is blank or starts with a comment stands for no statement, and neither a
session nor a saved query runs it. Reading such a text as a query is another matter. A
comment ends with its line, so the text is read as what stands behind the line of its
first comment. Usually nothing stands there, as behind the comment that takes the place
of a statement, and then the text asks for nothing either way.

A query that is written behind a comment shows the difference: it is read and can be run
as a query, but in a session and as a saved query it gives no rows.
-/

namespace MetricQuery

open Text (isBlank trimStart)

/-- The text behind the line of the comment that a text starts with; nothing if the text
is blank or its first comment has no line behind it. -/
def behindComment (text : String) : String :=
  String.ofList (((trimStart text.toList).dropWhile (· ≠ '\n')).drop 1)

/-- Blanks are a gap. -/
theorem gap_of_blanks {blanks : List Char} (all : ∀ c ∈ blanks, isBlank c = true) :
    Gap false blanks := by
  induction blanks with
  | nil => exact .nil
  | cons c later inductionHypothesis =>
    obtain ⟨here, behind⟩ := List.forall_mem_cons.mp all
    exact .blank here (inductionHypothesis behind)

/-- A comment is skipped up to the end of its line, and the rest of the text as any text. -/
theorem Gap.line {words : List Char} (oneLine : '\n' ∉ words) : Gap true (words ++ ['\n']) := by
  induction words with
  | nil => exact .ends .nil
  | cons c later inductionHypothesis =>
    simp only [List.mem_cons, not_or] at oneLine
    exact .inside (Ne.symm oneLine.1) (inductionHypothesis oneLine.2)

/-- Nothing is read in a comment without a line end. -/
theorem splitGap_openComment {words : List Char} (oneLine : '\n' ∉ words) :
    (splitGap true words).rest = [] := by
  induction words with
  | nil => rfl
  | cons c later inductionHypothesis =>
    simp only [List.mem_cons, not_or] at oneLine
    have goesOn : (c != '\n') = true := by simpa using Ne.symm oneLine.1
    rw [splitGap, goesOn]
    exact inductionHypothesis oneLine.2

/-- A scan from another byte on gives the same tokens at other places. -/
theorem unplaced_scanFrom (start : Nat) (text : List Char) :
    (scanFrom start text).tokens.map Token.unplaced = (scan text).tokens.map Token.unplaced := by
  obtain ⟨inPlace, none, source⟩ := scan_sound text
  have moved := scanFrom_sourceOf inPlace none start
  rw [source] at moved
  rw [moved, unplaced_placed]

/-- A gap in front of a text does not change the query that is read. -/
theorem ofTokens_behindGap {gap : List Char} (skipped : Gap false gap) (rest : List Char) :
    Query.ofTokens (scan (gap ++ rest)).tokens = Query.ofTokens (scan rest).tokens := by
  have front := skipped.splitGap_behind rest
  cases shape : splitGap false rest with
  | mk taken left =>
    rw [shape] at front
    cases left with
    | nil => rw [scan, scan, scanFrom_nil (by rw [front]), scanFrom_nil (by rw [shape])]
    | cons c later =>
      rw [scan, scan, scanFrom_step front rfl, scanFrom_step shape rfl]
      -- The first tokens differ in their gaps and places, all others in their places.
      rw [← Query.ofTokens_unplaced, ← Query.ofTokens_unplaced (_ :: _)]
      simp only [List.map_cons, unplaced_scanFrom]
      rfl

/-- The two ways in which a text stands for no statement: it is blank, or a comment stands
behind its first blanks. -/
theorem isSentinel_cases {text : String} (sentinel : isSentinel text = true) :
    trimStart text.toList = [] ∨ ∃ words, trimStart text.toList = '-' :: '-' :: words := by
  unfold isSentinel at sentinel
  split at sentinel
  · rename_i blank
    exact .inl blank
  · unfold startsComment at sentinel
    split at sentinel
    · rename_i words shape
      exact .inr ⟨words, shape⟩
    · cases sentinel

/-- A text that starts with a comment is read as what stands behind the line of it. -/
theorem ofTokens_comment (words : List Char) :
    Query.ofTokens (scan ('-' :: '-' :: words)).tokens =
      Query.ofTokens (scan ((words.dropWhile (· ≠ '\n')).drop 1)).tokens := by
  have line : '\n' ∉ words.takeWhile (· ≠ '\n') := by
    intro member
    simpa using List.all_eq_true.mp List.all_takeWhile _ member
  have whole : words.takeWhile (· ≠ '\n') ++ words.dropWhile (· ≠ '\n') = words :=
    List.takeWhile_append_dropWhile
  cases ends : words.dropWhile (· ≠ '\n') with
  | nil =>
    rw [ends, List.append_nil] at whole
    have open' : (splitGap false ('-' :: '-' :: words)).rest = [] := by
      rw [splitGap]
      exact splitGap_openComment (whole ▸ line)
    rw [scan, scanFrom_nil open', List.drop_nil, scan, scanFrom_nil rfl]
  | cons c later =>
    obtain rfl : c = '\n' := by
      have stops := List.head?_dropWhile_not (fun d : Char => decide (d ≠ '\n')) words
      rw [ends] at stops
      simpa using stops
    have skipped : Gap false ('-' :: '-' :: (words.takeWhile (· ≠ '\n') ++ ['\n'])) :=
      .opens (Gap.line line)
    have split : '-' :: '-' :: words =
        ('-' :: '-' :: (words.takeWhile (· ≠ '\n') ++ ['\n'])) ++ later := by
      conv => lhs; rw [← whole, ends]
      simp
    rw [split, ofTokens_behindGap skipped]
    rfl

/-- A text that stands for no statement is read as what stands behind the line of its
first comment. -/
theorem Query.ofText_behindComment {text : String} (sentinel : isSentinel text = true) :
    Query.ofText text = Query.ofText (behindComment text) := by
  -- The blanks at the start, which are skipped in any case.
  have blanks : Gap false (text.toList.takeWhile isBlank) :=
    gap_of_blanks fun c member => List.all_eq_true.mp List.all_takeWhile c member
  have start : text.toList = text.toList.takeWhile isBlank ++ trimStart text.toList :=
    List.takeWhile_append_dropWhile.symm
  rw [ofText, ofText, start, ofTokens_behindGap blanks, behindComment, String.toList_ofList]
  rcases isSentinel_cases sentinel with nothing | ⟨words, comment⟩
  · rw [nothing]
    rfl
  · rw [comment, ofTokens_comment]
    simp

/-- Behind a comment of one line stands nothing. -/
theorem behindComment_of_oneLine {text : String} (oneLine : '\n' ∉ trimStart text.toList) :
    behindComment text = "" := by
  have nothing : (trimStart text.toList).dropWhile (· ≠ '\n') = [] := by
    rw [List.dropWhile_eq_nil_iff]
    intro c member
    have apart : c ≠ '\n' := fun same => oneLine (same ▸ member)
    simpa using apart
  rw [behindComment, nothing]
  rfl

/-- A query that asks for nothing gives no rows in any dataset. -/
theorem Engine.runOn_empty (engine : Engine) (dataset : Dataset) : engine.runOn {} dataset = [] :=
  engine.runOver_empty dataset ""

namespace Session

/-- What becomes of a text that stands for no statement. No session and no saved query
gives rows for it. As a query it is read as what stands behind the line of its first
comment. Where that asks for nothing, and in particular where the text is blank or a
comment of one line, the text asks for nothing and gives no rows as a query either. -/
theorem sentinel_gives_nothing {text : String} (sentinel : isSentinel text = true)
    (dataset : Dataset) (engine : Engine) :
    (∀ session : Session, session.query = text →
        (session.apply .execute dataset engine).results = []) ∧
      (∀ record : SavedQuery, record.query = text → record.run dataset engine = []) ∧
      Query.ofText text = Query.ofText (behindComment text) ∧
      ('\n' ∉ trimStart text.toList ∨ Query.ofText (behindComment text) = {} →
        Query.ofText text = {} ∧ engine.runOn (Query.ofText text) dataset = []) := by
  have read := Query.ofText_behindComment sentinel
  refine ⟨?_, ?_, read, ?_⟩
  · rintro session rfl
    change session.answer dataset engine = []
    rw [answer, sentinel, if_pos rfl]
  · rintro record rfl
    rw [SavedQuery.run, sentinel, if_pos rfl]
  · intro nothingBehind
    have empty : Query.ofText text = {} := by
      rcases nothingBehind with oneLine | nothing
      · rw [read, behindComment_of_oneLine oneLine]
        decide +kernel
      · rw [read, nothing]
    rw [empty]
    exact ⟨rfl, engine.runOn_empty dataset⟩

/-- Comments and keywords without their clauses on several lines ask for nothing. -/
theorem sentinel_gives_nothing_on_lines :
    let text := " \t\n-- FROM sales\n  -- x\nFROM WHERE AND"
    let dataset := Dataset.ofList [("sales", [.ofList [("id", .text "1")]])]
    isSentinel text = true ∧ Query.ofText (behindComment text) = {} ∧
      ({ initial with query := text }.apply .execute dataset {}).results = [] ∧
      (SavedQuery.mk 1 text [] [] "" "sales" "SUM").run dataset {} = [] ∧
      Query.ofText text = {} ∧ Engine.runOn {} (Query.ofText text) dataset = [] := by
  intro text dataset
  have sentinel : isSentinel text = true := by decide +kernel
  have nothing : Query.ofText (behindComment text) = {} := by decide +kernel
  obtain ⟨inSession, alone, _, empty⟩ := sentinel_gives_nothing sentinel dataset {}
  exact ⟨sentinel, nothing, inSession _ rfl, alone _ rfl, empty (.inr nothing)⟩

/-- A text that starts with a comment and goes on with a query is run neither in a session
nor as a saved query. Read as a query it asks for the rows of its table. -/
theorem query_behind_comment :
    let text := "-- note\nSELECT id FROM sales"
    let dataset := Dataset.ofList [("sales", [.ofList [("id", .text "1")]])]
    isSentinel text = true ∧
      ({ initial with query := text }.apply .execute dataset {}).results = [] ∧
      (SavedQuery.mk 1 text [] [] "" "sales" "SUM").run dataset {} = [] ∧
      Query.ofText text ≠ {} ∧
      Engine.runOn {} (Query.ofText text) dataset = [.ofList [("id", .text "1")]] := by
  decide +kernel

end Session

end MetricQuery
