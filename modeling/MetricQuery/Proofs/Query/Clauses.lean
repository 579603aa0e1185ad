import MetricQuery.Proofs.Query.Cursor
import MetricQuery.Proofs.Query.Places
import MetricQuery.Proofs.Token.Joining

/-!
# Clauses are read apart

A clause ends before the keyword that opens the next one, as it would end with the
text. Nothing in a clause can change that: neither an open parenthesis, nor a
missing operand, nor a keyword without its clause. So tokens with an opening
keyword among them write what those before the keyword write, and then what those
from the keyword on write.

The main statement says the same of texts: a text and another one behind it, which
starts with an opening keyword, are read as the merge of what each of them is read
as alone. Only a quoted token that is left open reaches from one text into the
other.
-/

namespace MetricQuery

/-- A clause as if nothing came behind it. -/
def Clause.alone (clause : Clause) : Clause := { clause with ending := none }

/-- The clauses of tokens, each as if nothing came behind it. -/
def clausesAlone (tokens : List Token) : List Clause := (clausesOf tokens).map Clause.alone

/-- A clause says the same with the next clause behind it as with nothing. -/
theorem Clause.query_alone {clause : Clause}
    (next : ∀ token ∈ clause.ending, token.opensClause = true) :
    clause.alone.query = clause.query := by
  obtain ⟨opening, body, ending⟩ := clause
  have noName : ending.bind Token.name? = none := by
    cases ending with
    | none => rfl
    | some token => exact Token.name?_of_opensClause (next token rfl)
  cases opening with
  | FROM =>
    cases body with
    | nil => simp [query, alone, ahead, readTable, noName]
    | cons token later => rfl
  | GROUP => cases body <;> rfl
  | _ => rfl

/-- What ends a clause opens the next one. -/
theorem opensClause_of_ending {tokens : List Token} {clause : Clause}
    (member : clause ∈ clausesOf tokens) : ∀ token ∈ clause.ending, token.opensClause = true := by
  induction tokens with
  | nil => simp [clausesOf] at member
  | cons first later inductionHypothesis =>
    rw [clausesOf] at member
    cases opening : first.opening? with
    | none =>
      rw [opening] at member
      exact inductionHypothesis member
    | some word =>
      rw [opening] at member
      rcases List.mem_cons.mp member with rfl | behind
      · intro token found
        exact List.find?_some found
      · exact inductionHypothesis behind

/-- Tokens write what their clauses say alone. -/
theorem ofTokens_eq_clausesAlone (tokens : List Token) :
    Query.ofTokens tokens = mergeAll ((clausesAlone tokens).map Clause.query) := by
  rw [Query.ofTokens, clausesAlone, List.map_map]
  refine congrArg mergeAll (List.map_congr_left fun clause member => ?_)
  exact (Clause.query_alone (opensClause_of_ending member)).symm

/-- The body of a clause ends before a token that opens the next one. -/
theorem clauseBody_opening {token : Token} (opens : token.opensClause = true)
    (front back : List Token) : clauseBody (front ++ token :: back) = clauseBody front := by
  induction front with
  | nil => simp [clauseBody, opens]
  | cons first front inductionHypothesis =>
    simp only [clauseBody, List.cons_append] at inductionHypothesis ⊢
    cases inside : first.opensClause with
    | true => simp [inside]
    | false => simp [inside, inductionHypothesis]

/-- Clauses are cut before a token that opens one, whatever stands in front of it. -/
theorem clausesAlone_append {token : Token} (opens : token.opensClause = true)
    (front back : List Token) :
    clausesAlone (front ++ token :: back) = clausesAlone front ++ clausesAlone (token :: back) := by
  unfold clausesAlone
  induction front with
  | nil => rfl
  | cons first front inductionHypothesis =>
    rw [List.cons_append, clausesOf, clausesOf]
    cases first.opening? with
    | none => exact inductionHypothesis
    | some word =>
      simp only [List.map_cons, List.cons_append, inductionHypothesis, Clause.alone,
        clauseBody_opening opens]

/-- Tokens up to one that opens a clause and the tokens from there on write what
both write alone. -/
theorem ofTokens_append {token : Token} (opens : token.opensClause = true)
    (front back : List Token) :
    Query.ofTokens (front ++ token :: back) =
      (Query.ofTokens front).merge (Query.ofTokens (token :: back)) := by
  rw [ofTokens_eq_clausesAlone, clausesAlone_append opens, List.map_append, mergeAll_append,
    ← ofTokens_eq_clausesAlone, ← ofTokens_eq_clausesAlone]

/-- Tokens behind a clause add what they write alone. -/
theorem ofTokens_afterClause {front back : List Token} (after : AfterClause back) :
    Query.ofTokens (front ++ back) = (Query.ofTokens front).merge (Query.ofTokens back) := by
  cases back with
  | nil =>
    rw [List.append_nil]
    exact (Query.merge_empty_right _).symm
  | cons token later => exact ofTokens_append (after token rfl) front later

/-- The gap before the first token does not matter to what tokens write. -/
theorem ofTokens_firstGap (token : Token) (gap : List Char) (later : List Token) :
    Query.ofTokens ({ token with gap } :: later) = Query.ofTokens (token :: later) := rfl

/-- A text whose first token is a keyword that opens a clause. -/
def StartsClause (text : List Char) : Prop :=
  ∃ token ∈ (scan text).tokens.head?,
    token.kind ∈ [TokenKind.keyword .SELECT, .keyword .FROM, .keyword .WHERE, .keyword .GROUP]

instance (text : List Char) : Decidable (StartsClause text) :=
  inferInstanceAs (Decidable (∃ token ∈ (scan text).tokens.head?, _))

/-- What the first token of a text says when the text starts a clause. -/
theorem StartsClause.cases {text : List Char} (starts : StartsClause text) :
    ∃ token later, (scan text).tokens = token :: later ∧ token.opensClause = true := by
  obtain ⟨token, ahead, kind⟩ := starts
  obtain ⟨later, shape⟩ := List.head?_eq_some_iff.mp ahead
  refine ⟨token, later, shape, ?_⟩
  simp only [List.mem_cons, List.not_mem_nil, or_false] at kind
  rcases kind with kind | kind | kind | kind <;> rw [Token.opensClause, kind] <;> rfl

/-- Whether no quoted token of a text is left open at its end. -/
def LeavesNothingOpen (text : List Char) : Prop :=
  ∀ token ∈ (scan text).tokens, token.IsTerminated

instance (text : List Char) : Decidable (LeavesNothingOpen text) :=
  inferInstanceAs (Decidable (∀ token ∈ (scan text).tokens, token.IsTerminated))

/-- The query of a text and of another one on a new line behind it is the merge of
their queries, if the second one starts a clause and the first one leaves nothing open. -/
theorem Query.ofText_merge {first second : String} (closed : LeavesNothingOpen first.toList)
    (starts : StartsClause second.toList) :
    Query.ofText (first ++ "\n" ++ second) = (ofText first).merge (ofText second) := by
  obtain ⟨token, later, shape, opens⟩ := starts.cases
  have some : (scan second.toList).tokens ≠ [] := by simp [shape]
  have text : (first ++ "\n" ++ second).toList = first.toList ++ '\n' :: second.toList := by simp
  calc Query.ofText (first ++ "\n" ++ second)
      = Query.ofTokens (joinedTokens (scan first.toList) (scan second.toList)) := by
        rw [ofText, text, scan_joined closed some, ofTokens_placed]
    _ = (ofText first).merge (Query.ofTokens (token :: later)) := by
        rw [joinedTokens, shape, ofTokens_append (by exact opens), ofTokens_firstGap]
        rfl
    _ = (ofText first).merge (ofText second) := by rw [ofText, ofText, shape]

/-- Clauses are read apart: whatever a text says, in whichever broken way, it says
the same with further clauses on a new line behind it, and these say what they say
alone. Only the first table that is named counts. A cursor that goes over the tokens
of a text once reads every text so: each of its steps stops in front of an opening
keyword as at the end, and it notes what is left out of each clause. -/
theorem clauses_read_apart (first second : String) (closed : LeavesNothingOpen first.toList)
    (starts : StartsClause second.toList) :
    Query.ofText (first ++ "\n" ++ second) = {
      fields := (Query.ofText first).fields ++ (Query.ofText second).fields
      aggregations := (Query.ofText first).aggregations ++ (Query.ofText second).aggregations
      table :=
        if (Query.ofText first).table ≠ "" then (Query.ofText first).table
        else (Query.ofText second).table
      conditions := (Query.ofText first).conditions ++ (Query.ofText second).conditions
      grouping := (Query.ofText first).grouping ++ (Query.ofText second).grouping } ∧
      ∀ text : String,
        let tokens := (scan text.toList).tokens
        TokenCursor.read tokens =
          ⟨tokens.length, Query.ofText text, Query.journalOfText text⟩ := by
  refine ⟨?_, fun text => TokenCursor.read_eq _⟩
  rw [Query.ofText_merge closed starts, Query.merge]
  by_cases named : (Query.ofText first).table = ""
  · simp [named]
  · simp [named]

/-- An open parenthesis, a missing operand, a keyword without its clause and a
comment that the end of the text leaves open damage nothing behind them. Two clauses
and two conditions are left out. -/
theorem clauses_read_apart_broken :
    let first := ") SELECT sum((a), b FROM 3 WHERE = 1 AND c > AND d = 'x' GROUP -- FROM u"
    let second := "GROUP BY e, f.g FROM \"t\" WHERE h LIKE 'it''s' AND SELECT"
    let text := first ++ "\n" ++ second
    let reading := TokenCursor.read (scan text.toList).tokens
    LeavesNothingOpen first.toList ∧ StartsClause second.toList ∧
      Query.ofText text = {
        fields := ["sum((a), b"]
        aggregations := []
        table := "t"
        conditions := [⟨"d", .equal, "x"⟩, ⟨"h", .like, "it's"⟩]
        grouping := ["e", "g"] } ∧
      reading.query = Query.ofText text ∧
      reading.journal.map (fun event => event.details.head?) =
        [some ("clause", "FROM"), some ("error", "Expected field name, found Eq at 33-34"),
          some ("error", "Missing value after '>' at 43-44"), some ("clause", "GROUP BY")] := by
  intro first second text reading
  have closed : LeavesNothingOpen first.toList := by decide +kernel
  have starts : StartsClause second.toList := by decide +kernel
  obtain ⟨apart, read⟩ := clauses_read_apart first second closed starts
  have whole : reading = ⟨_, Query.ofText text, Query.journalOfText text⟩ := read text
  refine ⟨closed, starts, ?_, by rw [whole], ?_⟩
  · rw [apart]
    decide +kernel
  · rw [whole]
    decide +kernel

/-- A text before another one that starts a clause starts a clause if it does so alone. -/
theorem StartsClause.append {first second : String} (here : StartsClause first.toList)
    (closed : LeavesNothingOpen first.toList) (starts : StartsClause second.toList) :
    StartsClause (first ++ "\n" ++ second).toList := by
  obtain ⟨token, ahead, kind⟩ := here
  obtain ⟨later, shape⟩ := List.head?_eq_some_iff.mp ahead
  obtain ⟨_, _, secondShape, _⟩ := starts.cases
  have some : (scan second.toList).tokens ≠ [] := by simp [secondShape]
  have text : (first ++ "\n" ++ second).toList = first.toList ++ '\n' :: second.toList := by simp
  rw [text, StartsClause, scan_joined closed some, joinedTokens, shape]
  exact ⟨_, rfl, kind⟩

/-- Clauses on lines of their own write the merge of what each of them writes. -/
theorem Query.ofText_lines {texts : List String}
    (clauses : ∀ text ∈ texts, StartsClause text.toList ∧ LeavesNothingOpen text.toList) :
    Query.ofText ("\n".intercalate texts) = mergeAll (texts.map Query.ofText) := by
  have joined : Query.ofText ("\n".intercalate texts) = mergeAll (texts.map Query.ofText) ∧
      (texts ≠ [] → StartsClause ("\n".intercalate texts).toList) := by
    induction texts with
    | nil => exact ⟨by decide +kernel, fun none => absurd rfl none⟩
    | cons text later inductionHypothesis =>
      obtain ⟨⟨starts, closed⟩, behind⟩ := List.forall_mem_cons.mp clauses
      obtain ⟨read, laterStarts⟩ := inductionHypothesis behind
      cases later with
      | nil =>
        rw [String.intercalate_singleton]
        exact ⟨(Query.merge_empty_right _).symm, fun _ => starts⟩
      | cons next more =>
        have behindStarts := laterStarts (List.cons_ne_nil next more)
        rw [String.intercalate_cons_cons]
        refine ⟨?_, fun _ => starts.append closed behindStarts⟩
        rw [Query.ofText_merge closed behindStarts, read]
        rfl
  exact joined.1

/-- The first table that is named is the same in any order, if only one is named. -/
theorem firstNamed_perm {tables others : List String} (perm : tables.Perm others)
    (oneTable : ∀ table ∈ tables, ∀ other ∈ tables, table ≠ "" → other ≠ "" → table = other) :
    (tables.find? fun table => table ≠ "").getD "" =
      (others.find? fun table => table ≠ "").getD "" := by
  cases found : tables.find? fun table => table ≠ "" with
  | none =>
    have nowhere : others.find? (fun table => table ≠ "") = none := by
      rw [List.find?_eq_none] at found ⊢
      exact fun table member => found table (perm.mem_iff.mpr member)
    rw [nowhere]
  | some table =>
    have member : table ∈ tables := List.mem_of_find?_eq_some found
    have named : table ≠ "" := by simpa using List.find?_some found
    have somewhere : (others.find? fun table => table ≠ "").isSome = true := by
      rw [List.find?_isSome]
      exact ⟨table, perm.mem_iff.mp member, by simpa using named⟩
    obtain ⟨other, otherFound⟩ := Option.isSome_iff_exists.mp somewhere
    have otherMember : other ∈ tables := perm.mem_iff.mpr (List.mem_of_find?_eq_some otherFound)
    have otherNamed : other ≠ "" := by simpa using List.find?_some otherFound
    rw [otherFound]
    exact oneTable table member other otherMember named otherNamed

/-- Clauses on lines of their own may come in any order: the query is the same up to
the order of its items, if the clauses name at most one table. -/
theorem Query.ofText_lines_perm {texts others : List String} (perm : texts.Perm others)
    (clauses : ∀ text ∈ texts, StartsClause text.toList ∧ LeavesNothingOpen text.toList) :
    let first := Query.ofText ("\n".intercalate texts)
    let second := Query.ofText ("\n".intercalate others)
    first.fields.Perm second.fields ∧ first.aggregations.Perm second.aggregations ∧
      first.conditions.Perm second.conditions ∧ first.grouping.Perm second.grouping ∧
      ((∀ table ∈ texts.map fun text => (ofText text).table,
        ∀ other ∈ texts.map fun text => (ofText text).table,
          table ≠ "" → other ≠ "" → table = other) → first.table = second.table) := by
  have otherClauses : ∀ text ∈ others, StartsClause text.toList ∧ LeavesNothingOpen text.toList :=
    fun text member => clauses text (perm.mem_iff.mpr member)
  have queries : (texts.map Query.ofText).Perm (others.map Query.ofText) := perm.map _
  simp only [ofText_lines clauses, ofText_lines otherClauses, mergeAll_eq]
  refine ⟨queries.flatMap_right _, queries.flatMap_right _, queries.flatMap_right _,
    queries.flatMap_right _, ?_⟩
  intro oneTable
  refine firstNamed_perm (queries.map Query.table) ?_
  rw [List.map_map]
  exact oneTable

end MetricQuery
