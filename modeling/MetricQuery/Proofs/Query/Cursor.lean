import MetricQuery.Proofs.Query.Items

/-!
# Reading with a cursor

A query can be read in one pass over its tokens, with nothing but a position among them and
what was read so far. In front of a keyword that opens a clause the cursor goes into the
clause. An item of a list goes on up to a separator outside of all parentheses, and it also
stops in front of the next opening keyword. What is not understood is noted, and the cursor
skips tokens up to the next opening keyword.

The main statement is that this reads the query of the tokens and notes the same events.
Cutting at opening keywords first is no rule of its own: it is where every step of the cursor
comes to a stop, with any count of open parentheses and after any fault.
-/

namespace MetricQuery

namespace TokenCursor

/-! ## The steps of a cursor -/

section Steps

variable (tokens : List Token)

/-- The position at which an item stops, from a position on and with a number of open
parentheses: in front of a token outside of all parentheses that stops it, in front of one
that opens a clause, or at the end. -/
def takeUntil (stops : TokenKind → Bool) (depth position : Nat) : Nat :=
  match ahead : tokens[position]? with
  | none => position
  | some token =>
      have _inside : position < tokens.length := (List.getElem?_eq_some_iff.mp ahead).1
      if token.opensClause = true then position
      else if depth = 0 ∧ stops token.kind = true then position
      else takeUntil stops (depthAfter depth token.kind) (position + 1)
termination_by tokens.length - position

/-- The position of the next token that opens a clause, from a position on, or the end. -/
def recover (position : Nat) : Nat :=
  match ahead : tokens[position]? with
  | none => position
  | some token =>
      have _inside : position < tokens.length := (List.getElem?_eq_some_iff.mp ahead).1
      if token.opensClause = true then position else recover (position + 1)
termination_by tokens.length - position

/-- An item never stops in front of where it starts. -/
theorem le_takeUntil (stops : TokenKind → Bool) (depth position : Nat) :
    position ≤ takeUntil tokens stops depth position := by
  fun_induction takeUntil tokens stops depth position with
  | case4 depth position token _ _ _ _ inductionHypothesis =>
    exact Nat.le_of_succ_le inductionHypothesis
  | _ => exact Nat.le_refl _

/-- Skipping goes on like an item that no token outside of parentheses stops. -/
theorem recover_eq_takeUntil (depth position : Nat) :
    recover tokens position = takeUntil tokens (fun _ => false) depth position := by
  fun_induction recover tokens position generalizing depth with
  | case1 position ahead =>
    rw [takeUntil]
    split
    · rfl
    · rename_i found
      cases ahead.symm.trans found
  | case2 position token ahead inside opens =>
    rw [takeUntil]
    split
    · rfl
    · rename_i found
      obtain rfl := Option.some.inj (ahead.symm.trans found)
      rw [if_pos opens]
  | case3 position token ahead inside other inductionHypothesis =>
    rw [takeUntil]
    split
    · rename_i nothing
      cases ahead.symm.trans nothing
    · rename_i found
      obtain rfl := Option.some.inj (ahead.symm.trans found)
      rw [if_neg other, if_neg (by simp)]
      exact inductionHypothesis _

/-- Skipping never goes back. -/
theorem le_recover (position : Nat) : position ≤ recover tokens position := by
  rw [recover_eq_takeUntil tokens 0]
  exact le_takeUntil ..

/-- The items of a list from a position on, without empty ones, and the position at which the
last of them stops. -/
def items (isSeparator : TokenKind → Bool) (position : Nat) : List (List Token) × Nat :=
  let stop := takeUntil tokens isSeparator 0 position
  let item := [tokens.extract position stop].filter fun item => !item.isEmpty
  match ahead : tokens[stop]? with
  | none => (item, stop)
  | some mark =>
      have _inside : stop < tokens.length := (List.getElem?_eq_some_iff.mp ahead).1
      have _forward : position ≤ stop := le_takeUntil tokens isSeparator 0 position
      if isSeparator mark.kind = true then
        let (later, ending) := items isSeparator (stop + 1)
        (item ++ later, ending)
      else (item, stop)
termination_by tokens.length - position

/-- The items of a list never stop in front of where they start. -/
theorem le_items (isSeparator : TokenKind → Bool) (position : Nat) :
    position ≤ (items tokens isSeparator position).2 := by
  fun_induction items tokens isSeparator position with
  | case1 position stop => exact le_takeUntil ..
  | case2 position stop item mark ahead inside forward separates later ending behind
      inductionHypothesis =>
    rw [behind] at inductionHypothesis
    exact Nat.le_trans forward (Nat.le_of_succ_le inductionHypothesis)
  | case3 position stop => exact le_takeUntil ..

end Steps

/-- Where a cursor stands, and what it has read and noted so far. -/
structure Reading where
  /-- The position of the cursor. -/
  position : Nat := 0
  /-- The query so far. -/
  query : Query := {}
  /-- What was left out so far. -/
  journal : List Event := []

/-- The cursor behind the token that it stands in front of. -/
def Reading.advance (reading : Reading) : Reading :=
  { reading with position := reading.position + 1 }

/-- Add an item of a select list to a query. -/
def addItem (query : Query) : SelectItem → Query
  | .field name => { query with fields := query.fields ++ [name] }
  | .aggregation call => { query with aggregations := query.aggregations ++ [call] }

/-- Read a select list. -/
def selectList (tokens : List Token) (reading : Reading) : Reading :=
  let (items, stop) := items tokens isComma reading.position
  { reading with
    position := stop
    query := (items.map readSelectItem).foldl addItem reading.query }

/-- Read the table of a query. Only the first one that is named counts. -/
def tableName (tokens : List Token) (reading : Reading) : Reading :=
  match readTable tokens[reading.position]? with
  | .ok table =>
      { reading with
        position := reading.position + 1
        query :=
          if reading.query.table = "" then { reading.query with table } else reading.query }
  | .error fault =>
      { reading with
        position := recover tokens reading.position
        journal := reading.journal ++ [clauseDropped "FROM" fault] }

/-- Read conditions. One that is not understood is left out alone. -/
def conditionList (tokens : List Token) (reading : Reading) : Reading :=
  let (items, stop) := items tokens isAnd reading.position
  let conditions := items.map readCondition
  { position := stop
    query := { reading.query with
      conditions := reading.query.conditions ++ understood conditions }
    journal := reading.journal ++ (faults conditions).map conditionDropped }

/-- Read the fields of a grouping, which follow its second keyword. -/
def groupingList (tokens : List Token) (reading : Reading) : Reading :=
  let ahead := tokens[reading.position]?
  if ahead.map Token.kind = some (.keyword .BY) then
    let (items, stop) := items tokens isComma (reading.position + 1)
    { reading with
      position := stop
      query := { reading.query with
        grouping := reading.query.grouping ++
          items.map fun item => String.ofList (fieldName item) } }
  else
    { reading with
      position := recover tokens reading.position
      journal := reading.journal ++ [clauseDropped "GROUP BY" (.noBy ahead)] }

/-- Read a clause, with the cursor behind its keyword. -/
def readClause (word : Keyword) (tokens : List Token) (reading : Reading) : Reading :=
  match word with
  | .SELECT => selectList tokens reading
  | .FROM => tableName tokens reading
  | .WHERE => conditionList tokens reading
  | .GROUP => groupingList tokens reading
  | _ => reading

/-- Reading a clause never goes back. -/
theorem le_readClause (word : Keyword) (tokens : List Token) (reading : Reading) :
    reading.position ≤ (readClause word tokens reading).position := by
  cases word with
  | SELECT => exact le_items ..
  | FROM =>
    rw [readClause, tableName]
    split
    · exact Nat.le_succ _
    · exact le_recover ..
  | WHERE => exact le_items ..
  | GROUP =>
    simp only [readClause, groupingList]
    split
    · exact Nat.le_of_succ_le (le_items ..)
    · exact le_recover ..
  | _ => exact Nat.le_refl _

/-- Read clauses up to the end. Tokens that belong to no clause are passed over. -/
def readAll (tokens : List Token) (reading : Reading) : Reading :=
  match ahead : tokens[reading.position]? with
  | none => reading
  | some token =>
      have _inside : reading.position < tokens.length := (List.getElem?_eq_some_iff.mp ahead).1
      match token.opening? with
      | none => readAll tokens reading.advance
      | some word =>
          have _forward : reading.position + 1 ≤
              (readClause word tokens reading.advance).position :=
            le_readClause word tokens reading.advance
          readAll tokens (readClause word tokens reading.advance)
termination_by tokens.length - reading.position
decreasing_by
  · exact Nat.sub_succ_lt_self _ _ _inside
  · omega

/-- Read tokens from the first one on. -/
def read (tokens : List Token) : Reading := readAll tokens {}

/-! ## Steps in place -/

/-- The token in front of a cursor is the first one that is left. -/
theorem getElem?_append (before later : List Token) :
    (before ++ later)[before.length]? = later.head? := by
  rw [List.getElem?_append_right (Nat.le_refl _), Nat.sub_self, List.head?_eq_getElem?]

/-- The token in front of a cursor is the first one of the clause, or the one that ends it. -/
theorem getElem?_clause (before body rest : List Token) :
    (before ++ (body ++ rest))[before.length]? = body.head?.or rest.head? := by
  rw [getElem?_append, List.head?_append]

section Stops

variable (stops : TokenKind → Bool) (depth : Nat) (before : List Token)

/-- At the end an item stops. -/
theorem takeUntil_end : takeUntil before stops depth before.length = before.length := by
  rw [takeUntil]
  split
  · rfl
  · rename_i ahead
    simp at ahead

/-- In front of a token an item stops or goes on behind the token. -/
theorem takeUntil_cons (token : Token) (later : List Token) :
    takeUntil (before ++ token :: later) stops depth before.length =
      if token.opensClause = true then before.length
      else if depth = 0 ∧ stops token.kind = true then before.length
      else takeUntil (before ++ [token] ++ later) stops (depthAfter depth token.kind)
        (before ++ [token]).length := by
  rw [takeUntil]
  split
  · rename_i nothing
    simp at nothing
  · rename_i other ahead
    obtain rfl : token = other := by simpa using ahead
    simp

variable {body rest : List Token}

/-- An item stops where the first piece of the clause ends. -/
theorem takeUntil_append (inside : ∀ token ∈ body, token.opensClause = false)
    (after : AfterClause rest) :
    takeUntil (before ++ (body ++ rest)) stops depth before.length =
      (before ++ (splitPieces stops depth body).1).length := by
  induction body generalizing before depth with
  | nil =>
    rw [List.nil_append, splitPieces, List.append_nil]
    cases rest with
    | nil => rw [List.append_nil, takeUntil_end]
    | cons token later => rw [takeUntil_cons, if_pos (after token rfl)]
  | cons token body inductionHypothesis =>
    obtain ⟨here, behind⟩ := List.forall_mem_cons.mp inside
    rw [List.cons_append, takeUntil_cons, if_neg (by simp [here]), splitPieces]
    by_cases stopped : depth = 0 ∧ stops token.kind = true
    · rw [if_pos stopped, if_pos stopped, List.append_nil]
    · rw [if_neg stopped, if_neg stopped, inductionHypothesis _ _ behind]
      simp

/-- Skipping stops where the clause ends. -/
theorem recover_append (inside : ∀ token ∈ body, token.opensClause = false)
    (after : AfterClause rest) :
    recover (before ++ (body ++ rest)) before.length = (before ++ body).length := by
  rw [recover_eq_takeUntil _ 0, takeUntil_append _ _ before inside after]
  rcases splitPieces_cases (fun _ => false) 0 body with whole | ⟨_, _, _, _, separates, _⟩
  · rw [whole]
  · cases separates

end Stops

/-! ## Lists in place -/

/-- A comma opens no clause. -/
theorem opensClause_of_isComma (kind : TokenKind) (separates : isComma kind = true) :
    kind.opensClause = false := by
  obtain rfl : kind = .comma := of_decide_eq_true separates
  rfl

/-- The keyword between conditions opens no clause. -/
theorem opensClause_of_isAnd (kind : TokenKind) (separates : isAnd kind = true) :
    kind.opensClause = false := by
  obtain rfl : kind = .keyword .AND := of_decide_eq_true separates
  rfl

/-- The items of a list, without the bounds that keep the cursor going. -/
theorem items_eq (tokens : List Token) (isSeparator : TokenKind → Bool) (position : Nat) :
    items tokens isSeparator position =
      let stop := takeUntil tokens isSeparator 0 position
      let item := [tokens.extract position stop].filter fun item => !item.isEmpty
      if tokens[stop]?.any (fun mark => isSeparator mark.kind) = true then
        (item ++ (items tokens isSeparator (stop + 1)).1, (items tokens isSeparator (stop + 1)).2)
      else (item, stop) := by
  rw [items]
  split
  · rename_i ended
    simp [ended]
  · rename_i mark ahead
    simp [ahead]

/-- What lies between two positions of the cursor is cut out. -/
theorem extract_append (before piece later : List Token) :
    (before ++ (piece ++ later)).extract before.length (before ++ piece).length = piece := by
  simp [List.extract]

/-- The items of a list are those of the body of its clause, and the last one stops where the
clause ends. -/
theorem items_append {isSeparator : TokenKind → Bool}
    (apart : ∀ kind, isSeparator kind = true → kind.opensClause = false)
    (before : List Token) {body rest : List Token}
    (inside : ∀ token ∈ body, token.opensClause = false) (after : AfterClause rest) :
    items (before ++ (body ++ rest)) isSeparator before.length =
      (splitItems isSeparator body, (before ++ body).length) := by
  have stopped := takeUntil_append isSeparator 0 before inside after
  rw [items_eq]
  rcases splitPieces_cases isSeparator 0 body with
    whole | ⟨piece, mark, more, shape, separates, split⟩
  · have ended : ((before ++ (body ++ rest))[(before ++ body).length]?.any
        fun mark => isSeparator mark.kind) = false := by
      rw [← List.append_assoc, getElem?_append]
      cases rest with
      | nil => rfl
      | cons token later =>
        have opens : token.kind.opensClause = true := after token rfl
        exact Bool.eq_false_iff.mpr fun separates => by simp [apart _ separates] at opens
    rw [whole] at stopped
    simp only [stopped, ended, Bool.false_eq_true, if_false, extract_append, splitItems, whole]
  · have behindInside : ∀ token ∈ more, token.opensClause = false :=
      fun token member => inside token (by simp [shape, member])
    have shorter : more.length < body.length := by
      rw [shape, List.length_append, List.length_cons]
      omega
    have behind := items_append apart (before ++ piece ++ [mark]) behindInside after
    subst shape
    have source : before ++ (piece ++ mark :: more ++ rest) =
        before ++ piece ++ [mark] ++ (more ++ rest) := by simp
    have goesOn : ((before ++ (piece ++ mark :: more ++ rest))[(before ++ piece).length]?.any
        fun mark => isSeparator mark.kind) = true := by
      have shape : before ++ (piece ++ mark :: more ++ rest) =
          before ++ piece ++ mark :: (more ++ rest) := by simp
      rw [shape, getElem?_append]
      exact separates
    have cut : (before ++ (piece ++ mark :: more ++ rest)).extract before.length
        (before ++ piece).length = piece := by
      rw [List.append_assoc]
      exact extract_append ..
    have next : (before ++ piece).length + 1 = (before ++ piece ++ [mark]).length := by
      simp [Nat.add_assoc]
    have whole : splitItems isSeparator (piece ++ mark :: more) =
        [piece].filter (fun item => !item.isEmpty) ++ splitItems isSeparator more := by
      rw [splitItems, split, splitItems, ← List.filter_append]
      rfl
    rw [split] at stopped
    simp only [stopped, goesOn, if_true, cut, next]
    rw [source, behind, whole]
    simp
termination_by body.length
decreasing_by exact shorter

/-! ## Clauses in place -/

/-- Adding the items of a select list one after the other is merging what they add. -/
theorem foldl_addItem (items : List SelectItem) (query : Query) :
    items.foldl addItem query = query.merge (mergeAll (items.map SelectItem.query)) := by
  induction items generalizing query with
  | nil => exact (Query.merge_empty_right query).symm
  | cons item later inductionHypothesis =>
    have here : addItem query item = query.merge item.query := by
      cases item <;> by_cases unnamed : query.table = "" <;>
        simp [addItem, SelectItem.query, Query.merge, unnamed]
    rw [List.foldl_cons, inductionHypothesis, here, Query.merge_assoc]
    rfl

/-- A table that is understood is named by the first token of its clause. -/
theorem exists_cons_of_readTable {body rest : List Token} {table : String}
    (after : AfterClause rest) (understood : readTable (body.head?.or rest.head?) = .ok table) :
    ∃ token left, body = token :: left := by
  cases body with
  | cons token left => exact ⟨token, left, rfl⟩
  | nil =>
    cases rest with
    | nil => cases understood
    | cons token later =>
      have noName : token.name? = none := Token.name?_of_opensClause (after token rfl)
      simp [readTable, noName] at understood

/-- The second keyword of a grouping belongs to its clause. -/
theorem exists_cons_of_by {body rest : List Token} (after : AfterClause rest)
    (second : (body.head?.or rest.head?).map Token.kind = some (.keyword .BY)) :
    ∃ token left, body = token :: left ∧ token.kind = .keyword .BY := by
  cases body with
  | cons token left => exact ⟨token, left, rfl, Option.some.inj second⟩
  | nil =>
    obtain ⟨token, ahead, kind⟩ := Option.map_eq_some_iff.mp second
    have opens : token.opensClause = true := after token ahead
    rw [Token.opensClause, kind] at opens
    cases opens

/-- Whether a step reads a clause behind its keyword as it is read when it was cut out first,
and comes to a stop inside the clause or where it ends. -/
def Reads (word : Keyword) (step : List Token → Reading → Reading) : Prop :=
  ∀ {before body rest : List Token} (query : Query) (journal : List Event),
    (∀ token ∈ body, token.opensClause = false) → AfterClause rest →
    ∃ taken left, body = taken ++ left ∧
      step (before ++ (body ++ rest)) ⟨before.length, query, journal⟩ =
        ⟨(before ++ taken).length, query.merge (Clause.query ⟨word, body, rest.head?⟩),
          journal ++ Clause.journal ⟨word, body, rest.head?⟩⟩

/-- A select list is read to the end of its clause. -/
theorem reads_selectList : Reads .SELECT selectList := by
  intro before body rest query journal inside after
  have list := items_append opensClause_of_isComma before inside after
  refine ⟨body, [], (List.append_nil body).symm, ?_⟩
  simp [selectList, list, foldl_addItem, Clause.query, Clause.journal, readSelect,
    Function.comp_def]

/-- A table is read from one token, or the clause is skipped. -/
theorem reads_tableName : Reads .FROM tableName := by
  intro before body rest query journal inside after
  have ahead := getElem?_clause before body rest
  have skipped := recover_append before inside after
  cases table : readTable (body.head?.or rest.head?) with
  | ok name =>
    obtain ⟨token, left, rfl⟩ := exists_cons_of_readTable after table
    refine ⟨[token], left, rfl, ?_⟩
    rw [List.head?_cons, Option.some_or] at table
    by_cases unnamed : query.table = ""
    · simp [tableName, table, Clause.query, Clause.journal, Clause.ahead, Query.merge, unnamed]
    · simp [tableName, table, Clause.query, Clause.journal, Clause.ahead, Query.merge, unnamed]
  | error fault =>
    refine ⟨body, [], (List.append_nil body).symm, ?_⟩
    simp [tableName, ahead, skipped, table, Clause.query, Clause.journal, Clause.ahead]

/-- Conditions are read to the end of their clause. -/
theorem reads_conditionList : Reads .WHERE conditionList := by
  intro before body rest query journal inside after
  have list := items_append opensClause_of_isAnd before inside after
  refine ⟨body, [], (List.append_nil body).symm, ?_⟩
  simp [conditionList, list, Clause.query, Clause.journal, readConditions, Query.merge]

/-- The fields of a grouping are read to the end of its clause, or the clause is skipped. -/
theorem reads_groupingList : Reads .GROUP groupingList := by
  intro before body rest query journal inside after
  have ahead := getElem?_clause before body rest
  have skipped := recover_append before inside after
  by_cases second : (body.head?.or rest.head?).map Token.kind = some (.keyword .BY)
  · obtain ⟨token, left, rfl, kind⟩ := exists_cons_of_by after second
    have leftInside : ∀ token ∈ left, token.opensClause = false :=
      (List.forall_mem_cons.mp inside).2
    have list := items_append opensClause_of_isComma (before ++ [token]) leftInside after
    have source : before ++ [token] ++ (left ++ rest) = before ++ (token :: left ++ rest) := by simp
    have start : (before ++ [token]).length = before.length + 1 := by simp
    have stop : (before ++ [token] ++ left).length = (before ++ token :: left).length := by simp
    rw [source, start, stop] at list
    refine ⟨token :: left, [], (List.append_nil _).symm, ?_⟩
    simp only [groupingList, ahead, second, if_true, list]
    simp [Clause.query, Clause.journal, readGrouping, kind, Query.merge]
  · have dropped : readGrouping ⟨.GROUP, body, rest.head?⟩ =
        .error (.noBy (body.head?.or rest.head?)) := by
      cases body with
      | nil => rfl
      | cons token left =>
        have other : token.kind ≠ .keyword .BY := by simpa using second
        simp [readGrouping, other]
    refine ⟨body, [], (List.append_nil body).symm, ?_⟩
    simp [groupingList, ahead, second, skipped, dropped, Clause.query, Clause.journal]

/-- Every clause is read as it is read when it was cut out first. -/
theorem reads_readClause (word : Keyword) : Reads word (readClause word) := by
  cases word with
  | SELECT => exact reads_selectList
  | FROM => exact reads_tableName
  | WHERE => exact reads_conditionList
  | GROUP => exact reads_groupingList
  | _ =>
    intro before body rest query journal _ _
    refine ⟨[], body, rfl, ?_⟩
    simp [readClause, Clause.query, Clause.journal]

/-! ## The whole text -/

/-- At the end a cursor has read everything. -/
theorem readAll_end (before : List Token) (query : Query) (journal : List Event) :
    readAll before ⟨before.length, query, journal⟩ = ⟨before.length, query, journal⟩ := by
  rw [readAll]
  split
  · rfl
  · rename_i ahead
    simp at ahead

/-- In front of a token a cursor reads the clause that the token opens, or passes over it. -/
theorem readAll_cons (before : List Token) (token : Token) (later : List Token) (query : Query)
    (journal : List Event) :
    readAll (before ++ token :: later) ⟨before.length, query, journal⟩ =
      let tokens := before ++ [token] ++ later
      let behind : Reading := ⟨(before ++ [token]).length, query, journal⟩
      match token.opening? with
      | none => readAll tokens behind
      | some word => readAll tokens (readClause word tokens behind) := by
  rw [readAll]
  split
  · rename_i nothing
    simp at nothing
  · rename_i other ahead
    obtain rfl : token = other := by simpa using ahead
    cases token.opening? <;> simp [Reading.advance]

/-- Behind some tokens a cursor reads what the tokens in front of it write, and notes what is
left out of their clauses. The recursion goes on where the cursor has stopped in a clause: the
tokens of the clause that are left open no other. -/
theorem readAll_append (before later : List Token) (query : Query) (journal : List Event) :
    readAll (before ++ later) ⟨before.length, query, journal⟩ =
      ⟨(before ++ later).length, query.merge (Query.ofTokens later),
        journal ++ (clausesOf later).flatMap Clause.journal⟩ := by
  match later with
  | [] =>
    rw [List.append_nil, readAll_end]
    simp [Query.ofTokens, clausesOf, mergeAll]
  | token :: later =>
    have whole : before ++ [token] ++ later = before ++ token :: later := by simp
    rw [readAll_cons]
    cases opening : token.opening? with
    | none =>
      have behind := readAll_append (before ++ [token]) later query journal
      rw [whole] at behind ⊢
      simp only [behind, Query.ofTokens, clausesOf, opening]
    | some word =>
      obtain ⟨body, rest, shape, inside, after⟩ := exists_clauseBody later
      obtain ⟨taken, left, bodyShape, read⟩ :=
        reads_readClause word query journal inside after
      have shorter : (left ++ rest).length ≤ later.length := by
        simp [shape, bodyShape]
      have behind := readAll_append (before ++ [token] ++ taken) (left ++ rest)
        (query.merge (Clause.query ⟨word, body, rest.head?⟩))
        (journal ++ Clause.journal ⟨word, body, rest.head?⟩)
      have tokens : before ++ [token] ++ taken ++ (left ++ rest) = before ++ token :: later := by
        simp [shape, bodyShape]
      have first : clausesOf (token :: later) =
          ⟨word, body, rest.head?⟩ :: clausesOf (left ++ rest) := by
        obtain ⟨bodySame, endingSame⟩ := clauseBody_append inside after
        have leftInside : ∀ token ∈ left, token.opensClause = false :=
          fun token member => inside token (by simp [bodyShape, member])
        rw [clausesOf, opening, shape, bodySame, endingSame, clausesOf_append inside,
          clausesOf_append leftInside]
      rw [← shape, whole] at read
      rw [tokens] at behind
      simp only [whole, read, behind]
      simp only [Query.ofTokens, first, List.map_cons, List.flatMap_cons, mergeAll,
        List.foldr_cons, Query.merge_assoc, List.append_assoc]
termination_by later.length
decreasing_by
  · exact Nat.lt_succ_self _
  · exact Nat.lt_succ_of_le shorter

/-- A cursor reads the query that the tokens write, and notes what is left out of their
clauses. -/
theorem read_eq (tokens : List Token) :
    read tokens = ⟨tokens.length, Query.ofTokens tokens,
      (clausesOf tokens).flatMap Clause.journal⟩ := by
  have whole := readAll_append [] tokens {} []
  rwa [Query.merge_empty_left] at whole

end TokenCursor

end MetricQuery
