import MetricQuery.Proofs.Token.Spans

/-!
# Scanning with a cursor

A scan can be carried out with nothing but a position in the text, counted in bytes. The
cursor looks at the character at its position and at the one behind it, moves on by the
bytes of the characters it takes, and cuts the text of a token out between two positions
where it stood. Every look and every cut fails off the places where a character starts
or the text ends, and so would the whole scan.

The main statement is that the cursor never fails and finds the tokens of the scan, each
with its span: what a character takes in bytes is what the cursor moves on by, so it
always stands in front of the rest of the text that a scan by characters has left.
-/

namespace MetricQuery

open Text (byteLength dropBytes isBlank isDigit startsWord continuesWord)

/-- What is left of a text from a place on has the bytes that are left. -/
theorem Text.byteLength_of_dropBytes {source rest : List Char} {position : Nat}
    (left : dropBytes position source = some rest) :
    position + byteLength rest = byteLength source := by
  fun_induction dropBytes position source with
  | case1 source => simpa [eq_comm] using congrArg (Option.map byteLength) left
  | case2 => cases left
  | case3 count c later fits inductionHypothesis =>
    have behind := inductionHypothesis left
    rw [byteLength]
    omega
  | case4 => cases left

/-- A text with one more character has the bytes of the character more. -/
theorem Text.byteLength_concat (text : List Char) (c : Char) :
    byteLength text + c.utf8Size = byteLength (text ++ [c]) :=
  (byteLength_append text [c]).symm

/-- A text with two more characters has the bytes of the second more than with one. -/
theorem Text.byteLength_second (text : List Char) (c d : Char) :
    byteLength (text ++ [c]) + d.utf8Size = byteLength (text ++ [c, d]) := by
  rw [byteLength_concat, List.append_assoc]
  rfl

namespace Cursor

/-- What a cursor does with the character at its position, and how it goes on. -/
inductive Move (σ : Type) where
  /-- It leaves the character and stops. -/
  | stop
  /-- It takes the character, which closes what was read, and stops. -/
  | close
  /-- It takes the character. -/
  | one (next : σ)
  /-- It takes the character and the one behind it, if there is one. -/
  | two (next : σ)

/-- Where a cursor has stopped. -/
structure Reach where
  /-- The position of the character that closed what was read, or else the end of the text. -/
  bodyStop : Nat
  /-- The position at which the cursor has stopped. -/
  position : Nat
  deriving DecidableEq

/-- The character at a position, if the text does not end there. Looking fails where no
character starts and the text does not end. -/
def peek (source : List Char) (position : Nat) : Option (Option Char) :=
  (dropBytes position source).map List.head?

variable {σ : Type}

/-- Move a cursor on from a position, as the character there and the one behind it ask for. -/
def walk (source : List Char) (move : σ → Char → Option Char → Move σ) (state : σ)
    (position : Nat) : Option Reach :=
  match ahead : dropBytes position source with
  | none => none
  | some [] => some ⟨byteLength source, position⟩
  | some (c :: later) =>
      have _inside : position + (c.utf8Size + byteLength later) = byteLength source :=
        Text.byteLength_of_dropBytes ahead
      have _bytes : 0 < c.utf8Size := c.utf8Size_pos
      match move state c later.head? with
      | .stop => some ⟨byteLength source, position⟩
      | .close => some ⟨position, position + c.utf8Size⟩
      | .one next => walk source move next (position + c.utf8Size)
      | .two next =>
          match peek source (position + c.utf8Size) with
          | none => none
          | some none => walk source move next (position + c.utf8Size)
          | some (some d) => walk source move next (position + c.utf8Size + d.utf8Size)
termination_by byteLength source - position

/-- Over white space and comments; the state tells whether a comment is open. -/
def gapMove : Bool → Char → Option Char → Move Bool
  | true, c, _ => .one (c != '\n')
  | false, c, next =>
      if c = '-' ∧ next = some '-' then .two true
      else if isBlank c then .one false
      else .stop

/-- Over the characters of a word. -/
def wordMove (_ : Unit) (c : Char) (_ : Option Char) : Move Unit :=
  if continuesWord c then .one () else .stop

/-- Over the digits of a number and the point among them; the state tells whether the
point is behind. -/
def numberMove (pointSeen : Bool) (c : Char) (next : Option Char) : Move Bool :=
  if isDigit c then .one pointSeen
  else if c = '.' && !pointSeen && next.any isDigit then .one true
  else .stop

/-- Up to the closing quote, over doubled ones. -/
def quotedMove (quote : Char) (_ : Unit) (c : Char) (next : Option Char) : Move Unit :=
  if c = quote then if next = some quote then .two () else .close
  else .one ()

/-- Up to the closing quote, over doubled ones and over characters behind backslashes. -/
def escapedMove (_ : Unit) (c : Char) (next : Option Char) : Move Unit :=
  if c = '\\' then .two ()
  else if c = '\'' then if next = some '\'' then .two () else .close
  else .one ()

/-- Read a sign of inequality or an exclamation mark, with the cursor behind it. -/
def readSign (source : List Char) (c : Char) (position : Nat) : Option (TokenKind × Nat) := do
  let next ← peek source position
  if c = '>' then
    return if next = some '=' then (.atLeast, position + 1) else (.greater, position)
  else if c = '!' then
    return if next = some '=' then (.notEqual, position + 1) else (.illegal, position)
  else if next = some '>' then return (.notEqual, position + 1)
  else return if next = some '=' then (.atMost, position + 1) else (.less, position)

/-- Read a text or a name in quotes, with the cursor behind the opening quote. -/
def readQuoted (source : List Char) (quote : Char) (kind : List Char → TokenKind)
    (position : Nat) : Option (TokenKind × Nat) := do
  let reach ← walk source (quotedMove quote) () position
  let body ← (Span.mk position (min reach.bodyStop reach.position)).cut? source
  return (kind body, reach.position)

/-- Read an escaped text, with the cursor behind the opening quote. -/
def readEscaped (source : List Char) (position : Nat) : Option (TokenKind × Nat) := do
  let reach ← walk source escapedMove () position
  let body ← (Span.mk position (min reach.bodyStop reach.position)).cut? source
  return (.escapedString body, reach.position)

/-- Read a number from its start, with the cursor behind its first character. -/
def readNumber (source : List Char) (start position : Nat) : Option (TokenKind × Nat) := do
  let reach ← walk source numberMove false position
  let text ← (Span.mk start reach.position).cut? source
  return (.number text, reach.position)

/-- Read a word or an escaped text from its start, with the cursor behind its first
character. -/
def readWord (source : List Char) (start position : Nat) : Option (TokenKind × Nat) := do
  let reach ← walk source wordMove () position
  let word ← (Span.mk start reach.position).cut? source
  let next ← peek source reach.position
  if (word = ['E'] ∨ word = ['e']) ∧ next = some '\'' then readEscaped source (reach.position + 1)
  else return (wordKind word, reach.position)

/-- Read the token that starts with a character at a position. -/
def readToken (source : List Char) (start : Nat) (c : Char) : Option (TokenKind × Nat) :=
  let position := start + c.utf8Size
  match symbolKind? c with
  | some kind => some (kind, position)
  | none =>
      if c = '<' || c = '>' || c = '!' then readSign source c position
      else if c = '\'' then readQuoted source c .string position
      else if c = '"' then readQuoted source c .quotedName position
      else do
        let next ← peek source position
        if isDigit c || (c = '-' && next.any isDigit) then readNumber source start position
        else if startsWord c then readWord source start position
        else return (.illegal, position)

/-- Find the next token from a position on, with its span, if there is one. -/
def next (source : List Char) (position : Nat) : Option (Option (TokenKind × Span)) := do
  let reach ← walk source gapMove false position
  match ← peek source reach.position with
  | none => return none
  | some c =>
      let (kind, stop) ← readToken source reach.position c
      return some (kind, ⟨reach.position, stop⟩)

/-- A cursor finds some tokens from a position on and then the end of the text, and no
look and no cut fails. -/
inductive Run (source : List Char) : Nat → List (TokenKind × Span) → Prop where
  | done {position : Nat} (ended : next source position = some none) : Run source position []
  | found {position : Nat} {kind : TokenKind} {span : Span} {later : List (TokenKind × Span)}
      (read : next source position = some (some (kind, span))) (behind : Run source span.stop later) :
      Run source position ((kind, span) :: later)

/-- A look sees the first character behind the place where the cursor stands. -/
theorem peek_append (before later : List Char) :
    peek (before ++ later) (byteLength before) = some later.head? := by
  rw [peek, Text.dropBytes_append]
  rfl

section Walk

variable (move : σ → Char → Option Char → Move σ) (state : σ) (before : List Char)

/-- At the end of the text a cursor stops. -/
theorem walk_end :
    walk before move state (byteLength before) = some ⟨byteLength before, byteLength before⟩ := by
  have left : dropBytes (byteLength before) before = some [] := by
    simpa using Text.dropBytes_append before []
  rw [walk]
  split <;> simp_all

/-- In front of a character a cursor does what is asked for, and goes on from where it
stands then. -/
theorem walk_cons (c : Char) (later : List Char) :
    walk (before ++ c :: later) move state (byteLength before) =
      match move state c later.head? with
      | .stop => some ⟨byteLength (before ++ c :: later), byteLength before⟩
      | .close => some ⟨byteLength before, byteLength (before ++ [c])⟩
      | .one next => walk ((before ++ [c]) ++ later) move next (byteLength (before ++ [c]))
      | .two next =>
          match later with
          | [] => walk (before ++ [c]) move next (byteLength (before ++ [c]))
          | d :: behind =>
              walk ((before ++ [c, d]) ++ behind) move next (byteLength (before ++ [c, d])) := by
  have left : dropBytes (byteLength before) (before ++ c :: later) = some (c :: later) :=
    Text.dropBytes_append before _
  have moved := Text.byteLength_concat before c
  have whole : before ++ c :: later = (before ++ [c]) ++ later := List.append_cons ..
  have ahead : peek (before ++ c :: later) (byteLength (before ++ [c])) = some later.head? := by
    rw [whole]
    exact peek_append ..
  rw [walk]
  split
  · rename_i fails
    cases left.symm.trans fails
  · rename_i ended
    cases left.symm.trans ended
  · rename_i d behind same
    obtain ⟨rfl, rfl⟩ : c = d ∧ later = behind := by
      simpa using Option.some.inj (left.symm.trans same)
    cases asked : move state c later.head? with
    | stop => rfl
    | close => rw [moved]
    | one next => simp only [moved, whole]
    | two next =>
      cases later with
      | nil => simp only [moved, ahead, List.head?_nil]
      | cons e behind =>
        simp only [moved, ahead, List.head?_cons, Text.byteLength_second, List.append_assoc,
          List.cons_append, List.nil_append]

variable {move state} {c : Char} {later : List Char}

/-- A cursor that takes nothing stays where it stands. -/
theorem walk_stop (asked : move state c later.head? = .stop) :
    walk (before ++ c :: later) move state (byteLength before) =
      some ⟨byteLength (before ++ c :: later), byteLength before⟩ := by
  rw [walk_cons, asked]

/-- A cursor that closes what it read stands behind the character that closes it. -/
theorem walk_close (asked : move state c later.head? = .close) :
    walk (before ++ c :: later) move state (byteLength before) =
      some ⟨byteLength before, byteLength (before ++ [c])⟩ := by
  rw [walk_cons, asked]

/-- A cursor that takes a character goes on behind it. -/
theorem walk_one {next : σ} (asked : move state c later.head? = .one next) :
    walk (before ++ c :: later) move state (byteLength before) =
      walk ((before ++ [c]) ++ later) move next (byteLength (before ++ [c])) := by
  rw [walk_cons, asked]

/-- A cursor that takes two characters goes on behind them. -/
theorem walk_two {d : Char} {next : σ} (asked : move state c (some d) = .two next) :
    walk (before ++ c :: d :: later) move state (byteLength before) =
      walk ((before ++ [c, d]) ++ later) move next (byteLength (before ++ [c, d])) := by
  rw [walk_cons, List.head?_cons, asked]

end Walk

/-- A cursor passes the gap in front of it. -/
theorem walk_gap (inComment : Bool) (before text : List Char) :
    walk (before ++ text) gapMove inComment (byteLength before) =
      some ⟨byteLength (before ++ text), byteLength (before ++ (splitGap inComment text).taken)⟩ := by
  have noDashes {c : Char} {later : List Char}
      (noComment : ∀ behind, c = '-' → later = '-' :: behind → False) :
      ¬(c = '-' ∧ later.head? = some '-') := by
    rintro ⟨dash, ahead⟩
    obtain ⟨behind, rfl⟩ := List.head?_eq_some_iff.mp ahead
    exact noComment behind dash rfl
  fun_induction splitGap inComment text generalizing before with
  | case1 inComment =>
    rw [List.append_nil]
    exact walk_end ..
  | case2 c later inductionHypothesis =>
    rw [walk_one before rfl, inductionHypothesis]
    simp [Split.cons]
  | case3 later inductionHypothesis =>
    rw [walk_two before rfl, inductionHypothesis]
    simp [Split.cons]
  | case4 c later noComment blank inductionHypothesis =>
    have asked : gapMove false c later.head? = .one false := by
      simp [gapMove, noDashes noComment, blank]
    rw [walk_one before asked, inductionHypothesis]
    simp [Split.cons]
  | case5 c later noComment visible =>
    have asked : gapMove false c later.head? = .stop := by
      simp [gapMove, noDashes noComment, visible]
    rw [walk_stop before asked, List.append_nil]

/-- A cursor passes the word in front of it. -/
theorem walk_word (before text : List Char) :
    walk (before ++ text) wordMove () (byteLength before) =
      some ⟨byteLength (before ++ text), byteLength (before ++ (splitWord text).taken)⟩ := by
  induction text generalizing before with
  | nil =>
    rw [List.append_nil, splitWord, List.takeWhile_nil, List.append_nil]
    exact walk_end ..
  | cons c later inductionHypothesis =>
    by_cases continues : continuesWord c
    · rw [walk_one before (if_pos continues), inductionHypothesis]
      simp [splitWord, continues]
    · rw [walk_stop before (if_neg continues)]
      simp [splitWord, continues]

/-- Whether a digit is ahead is seen by looking at the next character. -/
theorem digitAhead_eq (text : List Char) : text.head?.any isDigit = digitAhead text := by
  cases text <;> rfl

/-- A cursor passes the digits of a number in front of it. -/
theorem walk_number (pointSeen : Bool) (before text : List Char) :
    walk (before ++ text) numberMove pointSeen (byteLength before) =
      some ⟨byteLength (before ++ text),
        byteLength (before ++ (splitNumber pointSeen text).taken)⟩ := by
  fun_induction splitNumber pointSeen text generalizing before with
  | case1 pointSeen =>
    rw [List.append_nil]
    exact walk_end ..
  | case2 pointSeen c later digit inductionHypothesis =>
    rw [walk_one before (if_pos digit), inductionHypothesis]
    simp [Split.cons]
  | case3 pointSeen c later noDigit point inductionHypothesis =>
    have asked : numberMove pointSeen c later.head? = .one true := by
      rw [numberMove, if_neg noDigit, digitAhead_eq, if_pos point]
    rw [walk_one before asked, inductionHypothesis]
    simp [Split.cons]
  | case4 pointSeen c later noDigit noPoint =>
    have asked : numberMove pointSeen c later.head? = .stop := by
      rw [numberMove, if_neg noDigit, digitAhead_eq, if_neg noPoint]
    rw [walk_stop before asked, List.append_nil]

/-- Where a cursor that has read a quoted text stands, and where its body ends: in front
of its closing quote, or at the end of the text if that is missing. -/
def reachOf (source before : List Char) (quote : Char) (split : QuotedSplit) : Reach :=
  ⟨if split.closed then byteLength (before ++ split.body) else byteLength source,
    byteLength (before ++ split.taken quote)⟩

/-- A character in front of the body is one that the cursor has passed. -/
theorem reachOf_cons (source before : List Char) (quote c : Char) (split : QuotedSplit) :
    reachOf source before quote (split.cons c) = reachOf source (before ++ [c]) quote split := by
  cases closed : split.closed <;> simp [reachOf, QuotedSplit.taken, QuotedSplit.cons, closed]

/-- A cursor passes the quoted text in front of it. -/
theorem walk_quoted (quote : Char) (before text : List Char) :
    walk (before ++ text) (quotedMove quote) () (byteLength before) =
      some (reachOf (before ++ text) before quote (splitQuoted quote text)) := by
  fun_induction splitQuoted quote text generalizing before with
  | case1 =>
    rw [List.append_nil]
    simp [reachOf, walk_end]
  | case2 =>
    rw [walk_close before (by simp [quotedMove])]
    simp [reachOf]
  | case3 c other =>
    rw [walk_one before (if_neg other), List.append_nil, walk_end]
    simp [reachOf]
  | case4 later inductionHypothesis =>
    have asked : quotedMove quote () quote (some quote) = .two () := by simp [quotedMove]
    rw [walk_two before asked, inductionHypothesis]
    simp [reachOf_cons]
  | case5 d later single =>
    rw [walk_close before (by simp [quotedMove, single])]
    simp [reachOf]
  | case6 c d later other inductionHypothesis =>
    rw [walk_one before (if_neg other), inductionHypothesis]
    simp [reachOf_cons]

/-- A cursor passes the escaped text in front of it. -/
theorem walk_escaped (before text : List Char) :
    walk (before ++ text) escapedMove () (byteLength before) =
      some (reachOf (before ++ text) before '\'' (splitEscaped text)) := by
  fun_induction splitEscaped text generalizing before with
  | case1 =>
    rw [List.append_nil]
    simp [reachOf, walk_end]
  | case2 =>
    rw [walk_close before (by simp [escapedMove])]
    simp [reachOf]
  | case3 c other =>
    by_cases escape : c = '\\'
    · rw [walk_cons, escapedMove, if_pos escape, List.append_nil]
      simp [reachOf, walk_end]
    · have asked : escapedMove () c none = .one () := by simp [escapedMove, escape, other]
      rw [walk_one before asked, List.append_nil, walk_end]
      simp [reachOf]
  | case4 d later inductionHypothesis =>
    have asked : escapedMove () '\\' (some d) = .two () := by simp [escapedMove]
    rw [walk_two before asked, inductionHypothesis]
    simp [reachOf_cons]
  | case5 later _ inductionHypothesis =>
    have asked : escapedMove () '\'' (some '\'') = .two () := by simp [escapedMove]
    rw [walk_two before asked, inductionHypothesis]
    simp [reachOf_cons]
  | case6 d later single =>
    rw [walk_close before (by simp [escapedMove, single])]
    simp [reachOf]
  | case7 c d later plain other inductionHypothesis =>
    have asked : escapedMove () c (some d) = .one () := by simp [escapedMove, plain, other]
    rw [walk_one before asked, inductionHypothesis]
    simp [reachOf_cons]

/-- A cut between two places where the cursor stood gives what it has passed in between. -/
theorem cut?_passed (front piece back : List Char) :
    (Span.mk (byteLength front) (byteLength (front ++ piece))).cut? (front ++ piece ++ back) =
      some piece := by
  rw [Text.byteLength_append, List.append_assoc]
  exact Span.cut?_append front piece back

/-- The body of a quoted text is cut out in front of its closing quote, or in front of the
place where the cursor has stopped if that is missing. -/
theorem cut?_reachOf {before text : List Char} {quote : Char} {split : QuotedSplit}
    (whole : split.taken quote ++ split.rest = text) :
    let reach := reachOf (before ++ text) before quote split
    (Span.mk (byteLength before) (min reach.bodyStop reach.position)).cut? (before ++ text) =
      some split.body := by
  subst whole
  have inside (front back : List Char) : byteLength front ≤ byteLength (front ++ back) := by
    rw [Text.byteLength_append]
    exact Nat.le_add_right _ _
  cases closed : split.closed with
  | true =>
    have stop := Nat.min_eq_left (inside (before ++ split.body) [quote])
    simp only [reachOf, QuotedSplit.taken, closed, if_true, ← List.append_assoc, stop]
    simpa using cut?_passed before split.body (quote :: split.rest)
  | false =>
    have stop := Nat.min_eq_right (inside (before ++ split.body) split.rest)
    simp only [reachOf, QuotedSplit.taken, closed, Bool.false_eq_true, if_false,
      ← List.append_assoc, stop]
    exact cut?_passed before split.body split.rest

/-- A quoted text is read with its body. -/
theorem readQuoted_append (quote : Char) (kind : List Char → TokenKind)
    (before later : List Char) :
    readQuoted (before ++ later) quote kind (byteLength before) =
      some (kind (splitQuoted quote later).body,
        byteLength (before ++ (splitQuoted quote later).taken quote)) := by
  simp only [readQuoted, walk_quoted, Option.bind_eq_bind, Option.bind_some,
    cut?_reachOf (splitQuoted_append quote later)]
  rfl

/-- An escaped text is read with its body. -/
theorem readEscaped_append (before later : List Char) :
    readEscaped (before ++ later) (byteLength before) =
      some (.escapedString (splitEscaped later).body,
        byteLength (before ++ (splitEscaped later).taken '\'')) := by
  simp only [readEscaped, walk_escaped, Option.bind_eq_bind, Option.bind_some,
    cut?_reachOf (splitEscaped_append later)]
  rfl

section FirstCharacter

variable (before : List Char) (c : Char) (later : List Char)

/-- A number is read from its first character on. -/
theorem readNumber_append :
    readNumber (before ++ c :: later) (byteLength before) (byteLength (before ++ [c])) =
      some ((lexNumber c later).kind, byteLength (before ++ c :: (lexNumber c later).tail)) := by
  have walked := walk_number false (before ++ [c]) later
  have cut := cut?_passed before (c :: (splitNumber false later).taken) (splitNumber false later).rest
  simp only [List.append_assoc, List.cons_append, List.nil_append, splitNumber_append]
    at walked cut
  simp only [readNumber, walked, cut, Option.bind_eq_bind, Option.bind_some]
  rfl

/-- A word is read from its first character on, and so is an escaped text. -/
theorem readWord_append :
    readWord (before ++ c :: later) (byteLength before) (byteLength (before ++ [c])) =
      some ((lexWord c later).kind, byteLength (before ++ c :: (lexWord c later).tail)) := by
  have whole : (splitWord later).taken ++ (splitWord later).rest = later :=
    List.takeWhile_append_dropWhile
  have walked := walk_word (before ++ [c]) later
  have cut := cut?_passed before (c :: (splitWord later).taken) (splitWord later).rest
  have ahead := peek_append (before ++ c :: (splitWord later).taken) (splitWord later).rest
  simp only [List.append_assoc, List.cons_append, List.nil_append, whole] at walked cut ahead
  simp only [readWord, walked, cut, ahead, Option.bind_eq_bind, Option.bind_some]
  by_cases escaped : (c = 'E' ∨ c = 'e') ∧ later.head? = some '\''
  · obtain ⟨escape, quoteAhead⟩ := escaped
    obtain ⟨quotedText, rfl⟩ := List.head?_eq_some_iff.mp quoteAhead
    have alone : splitWord ('\'' :: quotedText) = ⟨[], '\'' :: quotedText⟩ := by
      have stops : continuesWord '\'' = false := by decide
      simp [splitWord, stops]
    have read := readEscaped_append (before ++ [c, '\'']) quotedText
    simp only [List.append_assoc, List.cons_append, List.nil_append] at read
    have behind : byteLength (before ++ [c]) + 1 = byteLength (before ++ [c, '\'']) :=
      Text.byteLength_second before c '\''
    rw [if_pos (by simpa [alone] using escape), lexWord_quote escape, alone, behind, read]
  · rw [lexWord_plain escaped, if_neg]
    · rfl
    · rintro ⟨single, quoteAhead⟩
      have nothing : (splitWord later).taken = [] ∧ (c = 'E' ∨ c = 'e') := by
        rcases single with capital | small
        · exact ⟨(List.cons.inj capital).2, .inl (List.cons.inj capital).1⟩
        · exact ⟨(List.cons.inj small).2, .inr (List.cons.inj small).1⟩
      rw [nothing.1, List.nil_append] at whole
      exact escaped ⟨nothing.2, whole ▸ quoteAhead⟩

/-- A look for an equals sign tells whether a sign is alone. -/
theorem second_append (alone paired : TokenKind) :
    (if later.head? = some '=' then (paired, byteLength (before ++ [c]) + 1)
      else (alone, byteLength (before ++ [c]))) =
      ((withSecond '=' alone paired later).kind,
        byteLength (before ++ c :: (withSecond '=' alone paired later).tail)) := by
  cases later with
  | nil => rfl
  | cons d behind =>
    by_cases same : d = '='
    · subst same
      have movedOn : byteLength (before ++ [c]) + 1 = byteLength (before ++ [c, '=']) :=
        Text.byteLength_second before c '='
      simp [withSecond, movedOn]
    · simp [withSecond, same]

/-- A sign is read with the character behind it where the two belong together. -/
theorem readSign_append :
    readSign (before ++ c :: later) c (byteLength (before ++ [c])) =
      some ((lexSign c later).kind, byteLength (before ++ c :: (lexSign c later).tail)) := by
  have ahead := peek_append (before ++ [c]) later
  simp only [List.append_assoc, List.cons_append, List.nil_append] at ahead
  simp only [readSign, ahead, Option.bind_eq_bind, Option.bind_some]
  by_cases greater : c = '>'
  · subst greater
    rw [if_pos rfl]
    exact congrArg some (second_append before '>' later .greater .atLeast)
  by_cases mark : c = '!'
  · subst mark
    rw [if_neg greater, if_pos rfl]
    exact congrArg some (second_append before '!' later .illegal .notEqual)
  rw [if_neg greater, if_neg mark]
  by_cases unequal : later.head? = some '>'
  · obtain ⟨behind, rfl⟩ := List.head?_eq_some_iff.mp unequal
    have movedOn : byteLength (before ++ [c]) + 1 = byteLength (before ++ [c, '>']) :=
      Text.byteLength_second before c '>'
    rw [if_pos unequal, lexSign_unequal greater mark, movedOn]
    rfl
  · rw [if_neg unequal, lexSign_less greater mark unequal]
    exact congrArg some (second_append before c later .less .atMost)

end FirstCharacter

/-- The token that starts with the character at the cursor is read as far as its
characters go. -/
theorem readToken_append (before : List Char) (c : Char) (later : List Char) :
    readToken (before ++ c :: later) (byteLength before) c =
      some ((lexToken c later).kind, byteLength (before ++ c :: (lexToken c later).tail)) := by
  have ahead := peek_append (before ++ [c]) later
  have quoted (quote : Char) (kind : List Char → TokenKind) :=
    readQuoted_append quote kind (before ++ [c]) later
  simp only [List.append_assoc, List.cons_append, List.nil_append] at ahead quoted
  simp only [readToken, lexToken, Text.byteLength_concat]
  cases symbol : symbolKind? c with
  | some kind => rfl
  | none =>
    dsimp only
    split
    · exact readSign_append ..
    split
    · rename_i singleQuote
      rw [singleQuote] at quoted ⊢
      exact quoted ..
    split
    · rename_i doubleQuote
      rw [doubleQuote] at quoted ⊢
      exact quoted ..
    simp only [ahead, Option.bind_eq_bind, Option.bind_some, digitAhead_eq]
    split
    · exact readNumber_append ..
    split
    · exact readWord_append ..
    · rfl

/-- Behind a gap the next token is found, or else the end of the text. -/
theorem next_append (before text : List Char) :
    next (before ++ text) (byteLength before) =
      let here := before ++ (splitGap false text).taken
      some <| match (splitGap false text).rest with
        | [] => none
        | c :: later =>
            let lexeme := lexToken c later
            some (lexeme.kind, ⟨byteLength here, byteLength (here ++ c :: lexeme.tail)⟩) := by
  have whole := splitGap_append false text
  have ahead := peek_append (before ++ (splitGap false text).taken) (splitGap false text).rest
  rw [List.append_assoc, whole] at ahead
  simp only [next, walk_gap, ahead, Option.bind_eq_bind, Option.bind_some]
  cases behind : (splitGap false text).rest with
  | nil => rfl
  | cons c later =>
    have read := readToken_append (before ++ (splitGap false text).taken) c later
    rw [List.append_assoc, ← behind, whole] at read
    simp only [List.head?_cons, read, Option.bind_some]
    rfl

/-- A cursor finds the tokens of a scan, and no look and no cut fails. The induction is on
the scan: where it goes on with the text behind a token, the cursor stands in front of that
text. -/
theorem run_scanFrom (before text : List Char) :
    Run (before ++ text) (byteLength before)
      ((scanFrom (byteLength before) text).tokens.map fun token => (token.kind, token.span)) := by
  generalize place : byteLength before = start
  fun_induction scanFrom start text generalizing before with
  | case1 start text ahead =>
    subst place
    exact .done (by rw [next_append, ahead])
  | case2 start text c later ahead _shorter gap lexeme token remaining inductionHypothesis =>
    subst place
    have whole : gap ++ c :: (lexeme.tail ++ lexeme.rest) = text := by
      rw [lexToken_append, ← ahead]
      exact splitGap_append false text
    have start : token.span.start = byteLength (before ++ gap) :=
      (Text.byteLength_append before gap).symm
    have stop : token.span.stop = byteLength (before ++ gap ++ c :: lexeme.tail) := by
      rw [Text.byteLength_append _ (c :: lexeme.tail), ← start]
      rfl
    have span : token.span =
        ⟨byteLength (before ++ gap), byteLength (before ++ gap ++ c :: lexeme.tail)⟩ := by
      rw [← start, ← stop]
    have read : next (before ++ text) (byteLength before) = some (some (token.kind, token.span)) := by
      rw [next_append, ahead, span]
    have further := inductionHypothesis (before ++ gap ++ c :: lexeme.tail) stop.symm
    have source : before ++ gap ++ c :: lexeme.tail ++ lexeme.rest = before ++ text := by
      simp [← whole]
    rw [source] at further
    exact .found read further

end Cursor

end MetricQuery
