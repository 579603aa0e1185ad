import MetricQuery.Token.Scan

/-!
# Where a token ends

A token is read as long as its characters go on, so what it is may depend on
what follows it. It depends on very little. Only a few characters can continue
a token at all, and a point continues a number only if a digit follows.

The main statement is that a token keeps its reading when the text behind it is
replaced by one that offers nothing new to it. A line break, a blank or a comma
offers nothing to any token. A quoted token without its closing quote, which runs
to the end of the input, is the exception: text behind it would become part of it.
-/

namespace MetricQuery

open Text (isBlank isDigit startsWord continuesWord within)

/-- The characters with which some token can go on. -/
def extendsToken (c : Char) : Bool :=
  continuesWord c || isDigit c || ['\'', '"', '=', '>', '.'].contains c

/-- The code points in the runs of a class, as far as its runs end. -/
def codesOf : List Nat → List Nat
  | first :: stop :: later => List.range' first (stop - first) ++ codesOf later
  | _ => []

/-- A class whose last run ends has no other members. -/
theorem mem_codesOf {boundaries : List Nat} (ends : boundaries.length % 2 = 0) {code : Nat}
    (member : within false boundaries code = true) : code ∈ codesOf boundaries := by
  fun_induction codesOf boundaries with
  | case1 first stop later inductionHypothesis =>
    simp only [within] at member
    by_cases before : code < first
    · simp [before] at member
    by_cases inside : code < stop
    · exact List.mem_append_left _ (List.mem_range'_1.mpr (by omega))
    · simp only [before, inside, if_false, Bool.not_false, Bool.not_true] at member
      have laterEnds : later.length % 2 = 0 := by
        simp only [List.length_cons] at ends
        omega
      exact List.mem_append_right _ (inductionHypothesis laterEnds member)
  | case2 boundaries short =>
    rcases boundaries with _ | ⟨first, _ | ⟨stop, later⟩⟩
    · simp [within] at member
    · simp at ends
    · exact absurd rfl (short first stop later)

/-- No token goes on with white space. -/
theorem extendsToken_of_isBlank {c : Char} (blank : isBlank c = true) : extendsToken c = false := by
  have all : ∀ code ∈ codesOf Text.whiteSpace.boundaries,
      extendsToken (Char.ofNat code) = false := by decide +kernel
  have here := all c.toNat (mem_codesOf (by decide) blank)
  rwa [Char.ofNat_toNat] at here

/-- A text that no token can run into. -/
def EndsToken (rest : List Char) : Prop := ∀ c ∈ rest.head?, extendsToken c = false

/-- A text offers a token no more to go on with than another one does: it starts
with a character that ends every token, or as the other one does. -/
def OffersNoMore (other rest : List Char) : Prop :=
  ∀ c later, other = c :: later → extendsToken c = true →
    ∃ later', rest = c :: later' ∧ (digitAhead later = true → digitAhead later' = true)

/-- A text offers no more than itself. -/
theorem OffersNoMore.refl (rest : List Char) : OffersNoMore rest rest :=
  fun _ later same _ => ⟨later, same, id⟩

/-- A text that ends every token offers no more than any text. -/
theorem EndsToken.offersNoMore {other : List Char} (ends : EndsToken other) (rest : List Char) :
    OffersNoMore other rest := by
  intro c later same extending
  subst same
  have stops : extendsToken c = false := ends c rfl
  simp [stops] at extending

/-- The first character of a text that offers no more stands at the start of the other one. -/
theorem OffersNoMore.head {c : Char} {later rest : List Char}
    (mild : OffersNoMore (c :: later) rest) (extending : extendsToken c = true) :
    ∃ later', rest = c :: later' := by
  obtain ⟨later', same, _⟩ := mild c later rfl extending
  exact ⟨later', same⟩

/-- A character that can continue a token and does not stand behind it does not
stand at the start of a text that offers no more. -/
theorem OffersNoMore.head?_ne {other rest : List Char} (mild : OffersNoMore other rest) {c : Char}
    (extending : extendsToken c = true) (apart : rest.head? ≠ some c) :
    other.head? ≠ some c := by
  intro starts
  obtain ⟨later, same⟩ := List.head?_eq_some_iff.mp starts
  obtain ⟨later', restSame⟩ := (same ▸ mild).head extending
  exact apart (by rw [restSame, List.head?_cons])

/-- Behind the characters of a token it does not stand either. -/
theorem OffersNoMore.append_head?_ne {other rest : List Char} (mild : OffersNoMore other rest)
    {c : Char} (extending : extendsToken c = true) {tail : List Char}
    (apart : (tail ++ rest).head? ≠ some c) : (tail ++ other).head? ≠ some c := by
  cases tail with
  | nil => exact mild.head?_ne extending apart
  | cons d tail => exact apart

/-- Every digit can continue a token. -/
theorem extendsToken_of_isDigit {c : Char} (digit : isDigit c = true) :
    extendsToken c = true := by
  simp [extendsToken, digit]

/-- Every character of a word can continue a token. -/
theorem extendsToken_of_continuesWord {c : Char} (continues : continuesWord c = true) :
    extendsToken c = true := by
  simp [extendsToken, continues]

/-- Without a digit at the start of a text there is none in one that offers no more. -/
theorem OffersNoMore.digitAhead_eq_false {other rest : List Char}
    (mild : OffersNoMore other rest) (none : digitAhead rest = false) :
    digitAhead other = false := by
  cases other with
  | nil => rfl
  | cons c later =>
    by_cases digit : isDigit c = true
    · obtain ⟨later', same⟩ := mild.head (extendsToken_of_isDigit digit)
      rw [same] at none
      exact none
    · simpa [digitAhead] using digit

/-- The same characters in front of two texts keep their relation. -/
theorem OffersNoMore.append {other rest : List Char} (mild : OffersNoMore other rest)
    (front : List Char) : OffersNoMore (front ++ other) (front ++ rest) := by
  cases front with
  | nil => exact mild
  | cons d front =>
    intro c later same _
    obtain ⟨rfl, rfl⟩ : d = c ∧ front ++ other = later := by simpa using same
    refine ⟨front ++ rest, rfl, ?_⟩
    intro ahead
    cases front with
    | cons e front => exact ahead
    | nil =>
      cases restAhead : digitAhead rest with
      | true => exact restAhead
      | false => simp [mild.digitAhead_eq_false restAhead] at ahead

/-- A word stays the same word before a text that offers no more. -/
theorem splitWord_swap {tail rest other : List Char}
    (read : splitWord (tail ++ rest) = ⟨tail, rest⟩) (mild : OffersNoMore other rest) :
    splitWord (tail ++ other) = ⟨tail, other⟩ := by
  simp only [splitWord, Split.mk.injEq] at read ⊢
  obtain ⟨taken, left⟩ := read
  have inside : ∀ c ∈ tail, continuesWord c = true := by
    intro c member
    rw [← taken] at member
    exact List.all_eq_true.mp List.all_takeWhile c member
  rw [List.dropWhile_append_of_pos inside] at left
  have stops : ∀ c later, other = c :: later → ¬ continuesWord c = true := by
    intro c later same continues
    obtain ⟨later', restSame⟩ := (same ▸ mild).head (extendsToken_of_continuesWord continues)
    rw [restSame, List.dropWhile_cons_of_pos continues] at left
    have shorter := (List.dropWhile_suffix continuesWord (l := later')).length_le
    rw [left, List.length_cons] at shorter
    omega
  rw [List.takeWhile_append_of_pos inside, List.dropWhile_append_of_pos inside]
  cases other with
  | nil => simp
  | cons c later => simp [stops c later rfl]

/-- A split is given by its two parts. -/
theorem Split.eq_of_parts {split : Split} {taken rest : List Char} (left : split.taken = taken)
    (right : split.rest = rest) : split = ⟨taken, rest⟩ := by
  rw [← left, ← right]

/-- Splitting off one more character is splitting off the characters after it. -/
theorem Split.cons_eq_iff {c : Char} {split : Split} {tail rest : List Char} :
    split.cons c = ⟨c :: tail, rest⟩ ↔ split = ⟨tail, rest⟩ := by
  cases split
  simp [Split.cons]

/-- A number that is taken up to a place ends there before a text that offers no more. -/
theorem splitNumber_stops {pointSeen : Bool} {rest other : List Char}
    (read : splitNumber pointSeen rest = ⟨[], rest⟩) (mild : OffersNoMore other rest) :
    splitNumber pointSeen other = ⟨[], other⟩ := by
  cases other with
  | nil => cases pointSeen <;> rfl
  | cons c later =>
    by_cases digit : isDigit c = true
    · obtain ⟨later', same⟩ := mild.head (extendsToken_of_isDigit digit)
      simp [same, splitNumber, digit, Split.cons] at read
    · by_cases point : (c = '.' && !pointSeen && digitAhead later) = true
      · simp only [Bool.and_eq_true, decide_eq_true_eq] at point
        obtain ⟨⟨rfl, unseen⟩, digits⟩ := point
        obtain ⟨later', same, ahead⟩ := mild '.' later rfl (by decide)
        simp [same, splitNumber, digit, unseen, ahead digits, Split.cons] at read
      · simp [splitNumber, digit, point]

/-- What a number has taken after its point starts with a digit, so the digit is
looked at within the number and not behind it. -/
theorem digitAhead_of_splitNumber {tail rest : List Char}
    (read : splitNumber true (tail ++ rest) = ⟨tail, rest⟩)
    (ahead : digitAhead (tail ++ rest) = true) (other : List Char) :
    digitAhead (tail ++ other) = true := by
  cases tail with
  | cons c tail => exact ahead
  | nil =>
    cases rest with
    | nil => simp [digitAhead] at ahead
    | cons c rest =>
      have digit : isDigit c = true := ahead
      simp [splitNumber, digit, Split.cons] at read

/-- A number stays the same number before a text that offers no more. -/
theorem splitNumber_swap {pointSeen : Bool} {tail rest other : List Char}
    (read : splitNumber pointSeen (tail ++ rest) = ⟨tail, rest⟩)
    (mild : OffersNoMore other rest) :
    splitNumber pointSeen (tail ++ other) = ⟨tail, other⟩ := by
  induction tail generalizing pointSeen with
  | nil => exact splitNumber_stops read mild
  | cons c tail inductionHypothesis =>
    simp only [List.cons_append, splitNumber] at read ⊢
    by_cases digit : isDigit c = true
    · simp only [digit, if_true, Split.cons_eq_iff] at read ⊢
      exact inductionHypothesis read
    · simp only [digit, Bool.false_eq_true, if_false] at read ⊢
      by_cases point : (c = '.' && !pointSeen && digitAhead (tail ++ rest)) = true
      · simp only [point, if_true, Split.cons_eq_iff] at read
        simp only [Bool.and_eq_true] at point
        have ahead : digitAhead (tail ++ other) = true :=
          digitAhead_of_splitNumber read point.2 other
        simp only [point.1, ahead, Bool.and_self, if_true, Split.cons_eq_iff]
        exact inductionHypothesis read
      · simp [point] at read

/-- Putting a character in front of the body keeps a closed text closed. -/
theorem QuotedSplit.cons_eq_closed_iff {c : Char} {split : QuotedSplit} {body rest : List Char} :
    split.cons c = ⟨body, true, rest⟩ ↔
      ∃ later, body = c :: later ∧ split = ⟨later, true, rest⟩ := by
  cases split
  simp only [QuotedSplit.cons, QuotedSplit.mk.injEq]
  constructor
  · rintro ⟨same, closed, left⟩
    exact ⟨_, same.symm, rfl, closed, left⟩
  · rintro ⟨later, same, rfl, closed, left⟩
    exact ⟨same.symm, closed, left⟩

/-- A quote without another one behind it closes the text. -/
theorem splitQuoted_close {quote : Char} {other : List Char}
    (apart : other.head? ≠ some quote) :
    splitQuoted quote (quote :: other) = ⟨[], true, other⟩ := by
  cases other with
  | nil => simp [splitQuoted]
  | cons c later =>
    have different : c ≠ quote := fun same => apart (congrArg some same)
    simp [splitQuoted, different]

/-- A character that is no quote belongs to the body. -/
theorem splitQuoted_cons {quote c : Char} (different : c ≠ quote) (later : List Char) :
    splitQuoted quote (c :: later) = (splitQuoted quote later).cons c := by
  cases later with
  | nil => simp [splitQuoted, different, QuotedSplit.cons]
  | cons d later => simp [splitQuoted, different]

/-- A quoted text that was closed stays the same before a text that does not go
on with its quote. -/
theorem splitQuoted_swap {quote : Char} {text body rest other : List Char}
    (read : splitQuoted quote text = ⟨body, true, rest⟩) (apart : other.head? ≠ some quote) :
    splitQuoted quote (body ++ quote :: other) = ⟨body, true, other⟩ := by
  fun_induction splitQuoted quote text generalizing body with
  | case1 => simp at read
  | case2 =>
    simp only [QuotedSplit.mk.injEq] at read
    rw [← read.1]
    exact splitQuoted_close apart
  | case3 => simp at read
  | case4 later inductionHypothesis =>
    obtain ⟨outer, rfl, second⟩ := QuotedSplit.cons_eq_closed_iff.mp read
    obtain ⟨inner, rfl, behind⟩ := QuotedSplit.cons_eq_closed_iff.mp second
    simp [splitQuoted, inductionHypothesis behind, QuotedSplit.cons]
  | case5 =>
    simp only [QuotedSplit.mk.injEq] at read
    rw [← read.1]
    exact splitQuoted_close apart
  | case6 c d later different inductionHypothesis =>
    obtain ⟨inner, rfl, behind⟩ := QuotedSplit.cons_eq_closed_iff.mp read
    rw [List.cons_append, splitQuoted_cons different, inductionHypothesis behind]
    rfl

/-- A single quote without another one behind it closes an escaped text. -/
theorem splitEscaped_close {other : List Char} (apart : other.head? ≠ some '\'') :
    splitEscaped ('\'' :: other) = ⟨[], true, other⟩ := by
  cases other with
  | nil => rfl
  | cons c later =>
    have different : c ≠ '\'' := fun same => apart (congrArg some same)
    simp [splitEscaped, different]

/-- A character that is neither a backslash nor a quote belongs to an escaped text. -/
theorem splitEscaped_cons {c : Char} (noBackslash : c ≠ '\\') (noQuote : c ≠ '\'')
    (later : List Char) : splitEscaped (c :: later) = (splitEscaped later).cons c := by
  cases later with
  | nil => simp [splitEscaped, noQuote, QuotedSplit.cons]
  | cons d later => simp [splitEscaped, noBackslash, noQuote]

/-- An escaped text that was closed stays the same before a text that does not
go on with a quote. -/
theorem splitEscaped_swap {text body rest other : List Char}
    (read : splitEscaped text = ⟨body, true, rest⟩) (apart : other.head? ≠ some '\'') :
    splitEscaped (body ++ '\'' :: other) = ⟨body, true, other⟩ := by
  fun_induction splitEscaped text generalizing body with
  | case1 => simp at read
  | case2 =>
    simp only [QuotedSplit.mk.injEq] at read
    rw [← read.1]
    exact splitEscaped_close apart
  | case3 => simp at read
  | case4 d later inductionHypothesis =>
    obtain ⟨outer, rfl, second⟩ := QuotedSplit.cons_eq_closed_iff.mp read
    obtain ⟨inner, rfl, behind⟩ := QuotedSplit.cons_eq_closed_iff.mp second
    simp [splitEscaped, inductionHypothesis behind, QuotedSplit.cons]
  | case5 later _ inductionHypothesis =>
    obtain ⟨outer, rfl, second⟩ := QuotedSplit.cons_eq_closed_iff.mp read
    obtain ⟨inner, rfl, behind⟩ := QuotedSplit.cons_eq_closed_iff.mp second
    simp [splitEscaped, inductionHypothesis behind, QuotedSplit.cons]
  | case6 =>
    simp only [QuotedSplit.mk.injEq] at read
    rw [← read.1]
    exact splitEscaped_close apart
  | case7 c d later noBackslash noQuote inductionHypothesis =>
    obtain ⟨inner, rfl, behind⟩ := QuotedSplit.cons_eq_closed_iff.mp read
    rw [List.cons_append, splitEscaped_cons noBackslash noQuote, inductionHypothesis behind]
    rfl

/-- Only a closed quoted text leaves something behind it. -/
theorem splitQuoted_closed {quote : Char} {text : List Char}
    (more : (splitQuoted quote text).rest ≠ []) : (splitQuoted quote text).closed = true := by
  fun_induction splitQuoted quote text <;> simp_all [QuotedSplit.cons]

/-- Only a closed escaped text leaves something behind it. -/
theorem splitEscaped_closed {text : List Char} (more : (splitEscaped text).rest ≠ []) :
    (splitEscaped text).closed = true := by
  fun_induction splitEscaped text <;> simp_all [QuotedSplit.cons]

/-- No further quote stands behind a closed quoted text. -/
theorem splitQuoted_apart {quote : Char} {text body rest : List Char}
    (read : splitQuoted quote text = ⟨body, true, rest⟩) : rest.head? ≠ some quote := by
  fun_induction splitQuoted quote text generalizing body with
  | case1 => simp at read
  | case2 =>
    obtain ⟨-, -, rfl⟩ := QuotedSplit.mk.inj read
    simp
  | case3 c different => simp at read
  | case4 later inductionHypothesis =>
    obtain ⟨_, _, behind⟩ := QuotedSplit.cons_eq_closed_iff.mp read
    obtain ⟨_, _, further⟩ := QuotedSplit.cons_eq_closed_iff.mp behind
    exact inductionHypothesis further
  | case5 d later different =>
    obtain ⟨-, -, rfl⟩ := QuotedSplit.mk.inj read
    simpa using different
  | case6 c d later different inductionHypothesis =>
    obtain ⟨_, _, behind⟩ := QuotedSplit.cons_eq_closed_iff.mp read
    exact inductionHypothesis behind

/-- No further quote stands behind a closed escaped text. -/
theorem splitEscaped_apart {text body rest : List Char}
    (read : splitEscaped text = ⟨body, true, rest⟩) : rest.head? ≠ some '\'' := by
  fun_induction splitEscaped text generalizing body with
  | case1 => simp at read
  | case2 =>
    obtain ⟨-, -, rfl⟩ := QuotedSplit.mk.inj read
    simp
  | case3 c noQuote => simp at read
  | case4 d later inductionHypothesis =>
    obtain ⟨_, _, behind⟩ := QuotedSplit.cons_eq_closed_iff.mp read
    obtain ⟨_, _, further⟩ := QuotedSplit.cons_eq_closed_iff.mp behind
    exact inductionHypothesis further
  | case5 later noBackslash inductionHypothesis =>
    obtain ⟨_, _, behind⟩ := QuotedSplit.cons_eq_closed_iff.mp read
    obtain ⟨_, _, further⟩ := QuotedSplit.cons_eq_closed_iff.mp behind
    exact inductionHypothesis further
  | case6 d later different =>
    obtain ⟨-, -, rfl⟩ := QuotedSplit.mk.inj read
    simpa using different
  | case7 c d later noBackslash noQuote inductionHypothesis =>
    obtain ⟨_, _, behind⟩ := QuotedSplit.cons_eq_closed_iff.mp read
    exact inductionHypothesis behind

/-- Whether a token is made of a body between quotes. -/
def TokenKind.isQuoted : TokenKind → Bool
  | .quotedName _ | .string _ | .escapedString _ => true
  | _ => false

/-- Whether the text of a token has the closing quote that its kind asks for. -/
def TokenKind.IsTerminated (kind : TokenKind) (text : List Char) : Prop :=
  match kind with
  | .quotedName body => text = '"' :: (body ++ ['"'])
  | .string body => text = '\'' :: (body ++ ['\''])
  | .escapedString body => text.tail = '\'' :: (body ++ ['\''])
  | _ => True

instance (kind : TokenKind) (text : List Char) : Decidable (kind.IsTerminated text) :=
  match kind with
  | .quotedName body => inferInstanceAs (Decidable (text = '"' :: (body ++ ['"'])))
  | .string body => inferInstanceAs (Decidable (text = '\'' :: (body ++ ['\''])))
  | .escapedString body => inferInstanceAs (Decidable (text.tail = '\'' :: (body ++ ['\''])))
  | .keyword _ | .name _ | .number _ | .openParen | .closeParen | .comma | .star | .dot | .equal
  | .notEqual | .greater | .less | .atLeast | .atMost | .illegal =>
      inferInstanceAs (Decidable True)

/-- A token without quotes has none to close. -/
theorem TokenKind.isTerminated_of_isQuoted_eq_false {kind : TokenKind}
    (unquoted : kind.isQuoted = false) (text : List Char) : kind.IsTerminated text := by
  cases kind <;> trivial

/-- A text with a quote behind its body was closed. -/
theorem QuotedSplit.closed_of_taken {quote : Char} {split : QuotedSplit}
    (taken : split.taken quote = split.body ++ [quote]) : split.closed = true := by
  cases closed : split.closed with
  | true => rfl
  | false => simp [QuotedSplit.taken, closed] at taken

/-- A split whose text is closed, from its parts. -/
theorem QuotedSplit.eq_of_closed {quote : Char} {split : QuotedSplit} {tail rest : List Char}
    (closed : split.closed = true) (taken : split.taken quote = tail) (left : split.rest = rest) :
    split = ⟨split.body, true, rest⟩ ∧ tail = split.body ++ [quote] := by
  cases split
  simp_all [QuotedSplit.taken]

/-- A quoted token is closed if its closing quote is behind its body. -/
theorem lexQuoted_closed {quote : Char} {kindOf : List Char → TokenKind} {kind : TokenKind}
    {tail rest : List Char}
    (read : lexQuoted quote kindOf (tail ++ rest) = ⟨kind, tail, rest⟩)
    (quoted : ∀ body, kind = kindOf body → tail = body ++ [quote]) :
    (splitQuoted quote (tail ++ rest)).closed = true := by
  simp only [lexQuoted, Lexeme.mk.injEq] at read
  obtain ⟨same, taken, -⟩ := read
  exact QuotedSplit.closed_of_taken (taken.trans (quoted _ same.symm))

/-- A quoted token that is closed stays the same before a text that offers no more. -/
theorem lexQuoted_swap {quote : Char} {kindOf : List Char → TokenKind} {kind : TokenKind}
    {tail rest other : List Char}
    (read : lexQuoted quote kindOf (tail ++ rest) = ⟨kind, tail, rest⟩)
    (closed : (splitQuoted quote (tail ++ rest)).closed = true)
    (extending : extendsToken quote = true) (mild : OffersNoMore other rest) :
    lexQuoted quote kindOf (tail ++ other) = ⟨kind, tail, other⟩ := by
  simp only [lexQuoted, Lexeme.mk.injEq] at read
  obtain ⟨same, taken, left⟩ := read
  obtain ⟨whole, shape⟩ := QuotedSplit.eq_of_closed closed taken left
  have moved := splitQuoted_swap whole (mild.head?_ne extending (splitQuoted_apart whole))
  have joined : tail ++ other = (splitQuoted quote (tail ++ rest)).body ++ quote :: other := by
    conv => lhs; rw [shape]
    simp
  rw [lexQuoted, joined, moved]
  simp only [QuotedSplit.taken_closed, ← shape, same]

/-- An `E` with a quote behind it starts an escaped text. -/
theorem lexWord_quote {c : Char} (escape : c = 'E' ∨ c = 'e') (later : List Char) :
    lexWord c ('\'' :: later) =
      ⟨.escapedString (splitEscaped later).body, '\'' :: (splitEscaped later).taken '\'',
        (splitEscaped later).rest⟩ := by
  have stops : continuesWord '\'' = false := by decide
  rcases escape with rfl | rfl <;> simp [lexWord, splitWord, stops]

/-- Any other word is read as far as its characters go. -/
theorem lexWord_plain {c : Char} {later : List Char}
    (plain : ¬ ((c = 'E' ∨ c = 'e') ∧ later.head? = some '\'')) :
    lexWord c later =
      ⟨wordKind (c :: (splitWord later).taken), (splitWord later).taken,
        (splitWord later).rest⟩ := by
  have whole : (splitWord later).taken ++ (splitWord later).rest = later :=
    List.takeWhile_append_dropWhile
  simp only [lexWord]
  split
  · rename_i quotedText nothing ahead
    rw [nothing, ahead] at whole
    have noEscape : ¬ (c = 'E' ∨ c = 'e') := fun escape => plain ⟨escape, whole ▸ rfl⟩
    simpa [noEscape, nothing, ahead] using whole.symm
  · rfl

/-- A word or an escaped text that is closed stays the same before a text that
offers no more. -/
theorem lexWord_swap {c : Char} {kind : TokenKind} {tail rest other : List Char}
    (read : lexWord c (tail ++ rest) = ⟨kind, tail, rest⟩)
    (terminated : kind.IsTerminated (c :: tail)) (mild : OffersNoMore other rest) :
    lexWord c (tail ++ other) = ⟨kind, tail, other⟩ := by
  by_cases escaped : (c = 'E' ∨ c = 'e') ∧ (tail ++ rest).head? = some '\''
  · obtain ⟨escape, quoteAhead⟩ := escaped
    obtain ⟨quotedText, shape⟩ := List.head?_eq_some_iff.mp quoteAhead
    rw [shape, lexWord_quote escape, Lexeme.mk.injEq] at read
    obtain ⟨same, taken, left⟩ := read
    have closed : (splitEscaped quotedText).closed = true := by
      rw [← same, ← taken] at terminated
      exact QuotedSplit.closed_of_taken (List.cons.inj terminated).2
    obtain ⟨whole, body⟩ :=
      QuotedSplit.eq_of_closed closed (rfl : (splitEscaped quotedText).taken '\'' = _) left
    have moved := splitEscaped_swap whole
      (mild.head?_ne (by decide) (splitEscaped_apart whole))
    have joined : tail ++ other =
        '\'' :: ((splitEscaped quotedText).body ++ '\'' :: other) := by
      simp [← taken, body]
    rw [joined, lexWord_quote escape, moved, QuotedSplit.taken_closed, ← body, same, taken]
  · rw [lexWord_plain escaped, Lexeme.mk.injEq] at read
    obtain ⟨same, taken, left⟩ := read
    have whole : splitWord (tail ++ rest) = ⟨tail, rest⟩ := Split.eq_of_parts taken left
    have plain : ¬ ((c = 'E' ∨ c = 'e') ∧ (tail ++ other).head? = some '\'') := by
      rintro ⟨escape, quoteAhead⟩
      have apart : (tail ++ rest).head? ≠ some '\'' := fun before => escaped ⟨escape, before⟩
      exact mild.append_head?_ne (by decide) apart quoteAhead
    rw [lexWord_plain plain, splitWord_swap whole mild, ← same, taken]

/-- A word has no quotes. -/
theorem isQuoted_wordKind (word : List Char) : (wordKind word).isQuoted = false := by
  unfold wordKind
  split <;> rfl

/-- A word or an escaped text that something follows is closed. -/
theorem lexWord_isTerminated {c : Char} {kind : TokenKind} {tail rest : List Char}
    (read : lexWord c (tail ++ rest) = ⟨kind, tail, rest⟩) (followed : rest ≠ []) :
    kind.IsTerminated (c :: tail) := by
  by_cases escaped : (c = 'E' ∨ c = 'e') ∧ (tail ++ rest).head? = some '\''
  · obtain ⟨escape, quoteAhead⟩ := escaped
    obtain ⟨quotedText, shape⟩ := List.head?_eq_some_iff.mp quoteAhead
    rw [shape, lexWord_quote escape, Lexeme.mk.injEq] at read
    obtain ⟨same, taken, left⟩ := read
    have closed := splitEscaped_closed (left ▸ followed)
    obtain ⟨-, body⟩ :=
      QuotedSplit.eq_of_closed closed (rfl : (splitEscaped quotedText).taken '\'' = _) left
    rw [← same, ← taken, body]
    rfl
  · rw [lexWord_plain escaped, Lexeme.mk.injEq] at read
    rw [← read.1]
    exact TokenKind.isTerminated_of_isQuoted_eq_false (isQuoted_wordKind _) _

/-- A sign of one or two characters stays the same before a text that offers no more. -/
theorem withSecond_swap {second : Char} {alone paired kind : TokenKind}
    {tail rest other : List Char}
    (read : withSecond second alone paired (tail ++ rest) = ⟨kind, tail, rest⟩)
    (extending : extendsToken second = true) (mild : OffersNoMore other rest) :
    withSecond second alone paired (tail ++ other) = ⟨kind, tail, other⟩ := by
  cases tail with
  | nil =>
    have apart : rest.head? ≠ some second := by
      intro starts
      obtain ⟨later, rfl⟩ := List.head?_eq_some_iff.mp starts
      simp [withSecond] at read
    have still : other.head? ≠ some second := mild.head?_ne extending apart
    have same : alone = kind := by
      cases rest with
      | nil => simpa [withSecond] using read
      | cons c rest =>
        have different : c ≠ second := fun same => apart (congrArg some same)
        simpa [withSecond, different] using read
    cases other with
    | nil => simp [withSecond, same]
    | cons c other =>
      have different : c ≠ second := fun same => still (congrArg some same)
      simp [withSecond, different, same]
  | cons d tail =>
    by_cases paired : d = second
    · simp only [List.cons_append, withSecond, paired, if_true, Lexeme.mk.injEq,
        List.cons.injEq, true_and] at read ⊢
      obtain ⟨same, rfl, _⟩ := read
      simp [same]
    · simp [withSecond, paired] at read

/-- A smaller-than sign with a greater-than sign behind it is the sign of inequality. -/
theorem lexSign_unequal {c : Char} (notGreater : c ≠ '>') (notMark : c ≠ '!')
    (rest : List Char) : lexSign c ('>' :: rest) = ⟨.notEqual, ['>'], rest⟩ := by
  simp [lexSign, notGreater, notMark]

/-- Before any other text it is completed by an equals sign alone. -/
theorem lexSign_less {c : Char} (notGreater : c ≠ '>') (notMark : c ≠ '!') {later : List Char}
    (apart : later.head? ≠ some '>') : lexSign c later = withSecond '=' .less .atMost later := by
  simp only [lexSign, notGreater, notMark, if_false]
  split
  · simp at apart
  · rfl

/-- A sign stays the same before a text that offers no more. -/
theorem lexSign_swap {c : Char} {kind : TokenKind} {tail rest other : List Char}
    (read : lexSign c (tail ++ rest) = ⟨kind, tail, rest⟩) (mild : OffersNoMore other rest) :
    lexSign c (tail ++ other) = ⟨kind, tail, other⟩ := by
  by_cases greater : c = '>'
  · simp only [lexSign, greater, if_true] at read ⊢
    exact withSecond_swap read (by decide) mild
  by_cases mark : c = '!'
  · subst mark
    simp only [lexSign, greater, if_true, if_false] at read ⊢
    exact withSecond_swap read (by decide) mild
  by_cases unequal : (tail ++ rest).head? = some '>'
  · obtain ⟨later, shape⟩ := List.head?_eq_some_iff.mp unequal
    rw [shape, lexSign_unequal greater mark, Lexeme.mk.injEq] at read
    obtain ⟨same, rfl, _⟩ := read
    rw [List.cons_append, lexSign_unequal greater mark, same, List.nil_append]
  · rw [lexSign_less greater mark unequal] at read
    rw [lexSign_less greater mark (mild.append_head?_ne (by decide) unequal)]
    exact withSecond_swap read (by decide) mild

/-- A digit at the start of a text belongs to the number that is read there. -/
theorem splitNumber_takes {pointSeen : Bool} {text : List Char} (ahead : digitAhead text = true) :
    (splitNumber pointSeen text).taken ≠ [] := by
  cases text with
  | nil => simp [digitAhead] at ahead
  | cons c later =>
    have digit : isDigit c = true := ahead
    simp [splitNumber, digit, Split.cons]

/-- Whether a text with a given first character is a number. -/
def startsNumber (c : Char) (later : List Char) : Bool :=
  isDigit c || (c = '-' && digitAhead later)

/-- What was read as a number is a number before a text that offers no more. -/
theorem lexNumber_swap {c : Char} {kind : TokenKind} {tail rest other : List Char}
    (number : startsNumber c (tail ++ rest) = true)
    (read : lexNumber c (tail ++ rest) = ⟨kind, tail, rest⟩) (mild : OffersNoMore other rest) :
    startsNumber c (tail ++ other) = true ∧ lexNumber c (tail ++ other) = ⟨kind, tail, other⟩ := by
  simp only [lexNumber, Lexeme.mk.injEq] at read
  obtain ⟨same, taken, left⟩ := read
  have whole : splitNumber false (tail ++ rest) = ⟨tail, rest⟩ := Split.eq_of_parts taken left
  have still : startsNumber c (tail ++ other) = true := by
    by_cases digit : isDigit c = true
    · simp [startsNumber, digit]
    · simp only [startsNumber, digit, Bool.false_or, Bool.and_eq_true] at number ⊢
      have some : tail ≠ [] := taken ▸ splitNumber_takes number.2
      cases tail with
      | nil => exact absurd rfl some
      | cons d tail => exact number
  refine ⟨still, ?_⟩
  rw [lexNumber, splitNumber_swap whole mild, ← same, taken]

/-- What was read as no number is none before a text that offers no more. -/
theorem startsNumber_swap {c : Char} {tail rest other : List Char}
    (noNumber : startsNumber c (tail ++ rest) = false) (mild : OffersNoMore other rest) :
    startsNumber c (tail ++ other) = false := by
  cases tail with
  | cons d tail => exact noNumber
  | nil =>
    simp only [startsNumber, List.nil_append, Bool.or_eq_false_iff, Bool.and_eq_false_imp] at *
    exact ⟨noNumber.1, fun minus => mild.digitAhead_eq_false (noNumber.2 minus)⟩

/-- A sign is no quoted token. -/
theorem isQuoted_lexSign (c : Char) (later : List Char) :
    (lexSign c later).kind.isQuoted = false := by
  have single (second : Char) {alone paired : TokenKind} (noAlone : alone.isQuoted = false)
      (noPaired : paired.isQuoted = false) (later : List Char) :
      (withSecond second alone paired later).kind.isQuoted = false := by
    cases later with
    | nil => exact noAlone
    | cons d later => by_cases same : d = second <;> simp [withSecond, same, noAlone, noPaired]
  unfold lexSign
  split
  · exact single '=' rfl rfl later
  · split
    · exact single '=' rfl rfl later
    · split
      · rfl
      · exact single '=' rfl rfl later

/-- A symbol is no quoted token. -/
theorem isQuoted_symbolKind? {c : Char} {kind : TokenKind} (symbol : symbolKind? c = some kind) :
    kind.isQuoted = false := by
  unfold symbolKind? at symbol
  grind [TokenKind.isQuoted]

/-- A quoted token that something follows is closed. -/
theorem lexQuoted_closing {quote : Char} {kindOf : List Char → TokenKind} {kind : TokenKind}
    {tail rest : List Char}
    (read : lexQuoted quote kindOf (tail ++ rest) = ⟨kind, tail, rest⟩) (followed : rest ≠ []) :
    ∃ body, kind = kindOf body ∧ tail = body ++ [quote] := by
  simp only [lexQuoted, Lexeme.mk.injEq] at read
  obtain ⟨same, taken, left⟩ := read
  have closed := splitQuoted_closed (left ▸ followed)
  exact ⟨_, same.symm, (QuotedSplit.eq_of_closed closed taken left).2⟩

/-- A token that something follows is not left open. -/
theorem lexToken_isTerminated {c : Char} {kind : TokenKind} {tail rest : List Char}
    (read : lexToken c (tail ++ rest) = ⟨kind, tail, rest⟩) (followed : rest ≠ []) :
    kind.IsTerminated (c :: tail) := by
  have unquoted {lexeme : Lexeme} (same : lexeme = ⟨kind, tail, rest⟩)
      (none : lexeme.kind.isQuoted = false) : kind.IsTerminated (c :: tail) := by
    rw [same] at none
    exact TokenKind.isTerminated_of_isQuoted_eq_false none _
  unfold lexToken at read
  cases symbol : symbolKind? c with
  | some alone =>
    simp only [symbol] at read
    exact unquoted read (isQuoted_symbolKind? symbol)
  | none =>
    simp only [symbol] at read
    split at read
    · exact unquoted read (isQuoted_lexSign c _)
    · split at read
      · rename_i singleQuote
        subst singleQuote
        obtain ⟨body, rfl, rfl⟩ := lexQuoted_closing read followed
        rfl
      · split at read
        · rename_i doubleQuote
          subst doubleQuote
          obtain ⟨body, rfl, rfl⟩ := lexQuoted_closing read followed
          rfl
        · split at read
          · exact unquoted read rfl
          · split at read
            · exact lexWord_isTerminated read followed
            · exact unquoted read rfl

/-- A token that is not left open is read in the same way before a text that
offers no more than what follows it. The cases are the kinds of tokens, in the
order in which reading tries them. -/
theorem lexToken_swap {c : Char} {kind : TokenKind} {tail rest other : List Char}
    (read : lexToken c (tail ++ rest) = ⟨kind, tail, rest⟩)
    (terminated : kind.IsTerminated (c :: tail)) (mild : OffersNoMore other rest) :
    lexToken c (tail ++ other) = ⟨kind, tail, other⟩ := by
  have single {alone : TokenKind}
      (symbol : Lexeme.mk alone [] (tail ++ rest) = ⟨kind, tail, rest⟩) :
      Lexeme.mk alone [] (tail ++ other) = ⟨kind, tail, other⟩ := by
    simp only [Lexeme.mk.injEq] at symbol
    obtain ⟨same, rfl, _⟩ := symbol
    simp [same]
  unfold lexToken at read ⊢
  cases symbol : symbolKind? c with
  | some alone =>
    simp only [symbol] at read ⊢
    exact single read
  | none =>
    simp only [symbol] at read ⊢
    by_cases sign : (c = '<' || c = '>' || c = '!') = true
    · simp only [sign, if_true] at read ⊢
      exact lexSign_swap read mild
    simp only [sign] at read ⊢
    by_cases singleQuote : c = '\''
    · subst singleQuote
      simp only [if_true] at read ⊢
      have closed := lexQuoted_closed read fun body same => by
        rw [same] at terminated
        exact (List.cons.inj terminated).2
      exact lexQuoted_swap read closed (by decide) mild
    simp only [singleQuote, if_false] at read ⊢
    by_cases doubleQuote : c = '"'
    · subst doubleQuote
      simp only [if_true] at read ⊢
      have closed := lexQuoted_closed read fun body same => by
        rw [same] at terminated
        exact (List.cons.inj terminated).2
      exact lexQuoted_swap read closed (by decide) mild
    simp only [doubleQuote, if_false] at read ⊢
    change (if startsNumber c (tail ++ rest) = true then _ else _) = _ at read
    change (if startsNumber c (tail ++ other) = true then _ else _) = _
    cases number : startsNumber c (tail ++ rest) with
    | true =>
      simp only [number, if_true] at read
      obtain ⟨still, same⟩ := lexNumber_swap number read mild
      simp only [still, if_true, same]
    | false =>
      simp only [number, startsNumber_swap number mild] at read ⊢
      by_cases word : startsWord c = true
      · simp only [word, if_true] at read ⊢
        exact lexWord_swap read terminated mild
      · simp only [word] at read ⊢
        exact single read

end MetricQuery
