import MetricQuery.Proofs.Token.Reading

/-!
# Writing tokens

A kind of token fixes the text it is written with. Kinds in a row are written
with one blank between them, except that a parenthesis and a comma stand right
behind what is before them and that nothing stands behind an opening parenthesis.

The main statement is that a row of kinds is read back from what is written, if
each of them is read back alone. A blank, a parenthesis or a comma ends every
token, so no token can run into the next one.
-/

namespace MetricQuery

open Text (isBlank isDigit startsWord continuesWord)

/-- Whether a text starts as the text behind a token does: with nothing, a blank, a
parenthesis or a comma. -/
def StartsBehind (rest : List Char) : Prop := ∀ c ∈ rest.head?, c ∈ [' ', '(', ')', ',']

/-- Each of these marks starts a text behind a token. -/
theorem startsBehind_cons {c : Char} (mark : c ∈ [' ', '(', ')', ',']) (later : List Char) :
    StartsBehind (c :: later) := by
  rintro d ⟨⟩
  exact mark

/-- A text behind a token starts as its first part does that is not empty. -/
theorem StartsBehind.append {front rest : List Char} (starts : StartsBehind front)
    (behind : StartsBehind rest) : StartsBehind (front ++ rest) := by
  cases front with
  | nil => exact behind
  | cons c front => exact starts

/-- No token can run into a text behind a token. -/
theorem StartsBehind.endsToken {rest : List Char} (starts : StartsBehind rest) :
    EndsToken rest := by
  intro c first
  have ends : [' ', '(', ')', ','].all (fun d => !extendsToken d) = true := by decide
  simpa using List.all_eq_true.mp ends c (starts c first)

namespace TokenKind

/-- The text with which a kind of token is written. -/
def written : TokenKind → List Char
  | keyword word => word.word.map Char.toUpper
  | name text | number text => text
  | quotedName body => '"' :: (body ++ ['"'])
  | string body => '\'' :: (body ++ ['\''])
  | escapedString body => 'E' :: '\'' :: (body ++ ['\''])
  | openParen => ['(']
  | closeParen => [')']
  | comma => [',']
  | star => ['*']
  | dot => ['.']
  | equal => ['=']
  | notEqual => ['<', '>']
  | greater => ['>']
  | less => ['<']
  | atLeast => ['>', '=']
  | atMost => ['<', '=']
  | illegal => []

/-- Whether a kind of token is written without a blank before it. -/
def hugsLeft : TokenKind → Bool
  | openParen | closeParen | comma => true
  | _ => false

/-- Whether a kind of token is read back from what is written for it. -/
def IsWritable (kind : TokenKind) : Prop := ReadsAs kind kind.written [' ']

end TokenKind

/-- A row of kinds as tokens; `tight` tells that no blank stands before the first one. -/
def spelled : Bool → List TokenKind → List Token
  | _, [] => []
  | tight, kind :: later =>
      ⟨kind, if tight || kind.hugsLeft then [] else [' '], kind.written, 0⟩ ::
        spelled (kind = .openParen) later

/-- The text of a row of kinds. -/
def rendered (tight : Bool) (kinds : List TokenKind) : List Char := sourceOf (spelled tight kinds)

/-- The tokens of a row of kinds have these kinds. -/
theorem kinds_spelled (tight : Bool) (kinds : List TokenKind) :
    (spelled tight kinds).map Token.kind = kinds := by
  induction kinds generalizing tight with
  | nil => rfl
  | cons kind later inductionHypothesis => simp [spelled, inductionHypothesis]

/-- The text of a row is the text of its first kind, then that of the others. -/
theorem rendered_cons (tight : Bool) (kind : TokenKind) (later : List TokenKind) :
    rendered tight (kind :: later) =
      (if tight || kind.hugsLeft then [] else [' ']) ++
        (kind.written ++ rendered (kind = .openParen) later) := by
  simp [rendered, spelled, sourceOf]

/-- What is written behind anything but an opening parenthesis starts with a
blank, a parenthesis or a comma. -/
theorem head?_rendered {kinds : List TokenKind} {c : Char}
    (starts : (rendered false kinds).head? = some c) : c ∈ [' ', '(', ')', ','] := by
  cases kinds with
  | nil => simp [rendered, spelled, sourceOf] at starts
  | cons kind later =>
    rw [rendered_cons] at starts
    cases kind <;>
      · obtain rfl := Option.some.inj starts
        decide

/-- So it starts as the text behind a token does. -/
theorem startsBehind_rendered (kinds : List TokenKind) : StartsBehind (rendered false kinds) :=
  fun _ starts => head?_rendered starts

/-- No token can run into it. -/
theorem endsToken_rendered (kinds : List TokenKind) : EndsToken (rendered false kinds) :=
  (startsBehind_rendered kinds).endsToken

/-- An opening parenthesis is read as one before any text. -/
theorem readsAs_openParen (rest : List Char) : ReadsAs .openParen ['('] rest := by
  have visible : isBlank '(' = false := by decide
  exact ⟨by simp [startsVisible_cons_iff, visible], '(', [], rfl, rfl⟩

/-- A row of kinds that are read back alone is in place. -/
theorem inPlace_spelled {kinds : List TokenKind} (writable : ∀ kind ∈ kinds, kind.IsWritable)
    (tight : Bool) : InPlace (spelled tight kinds) [] := by
  induction kinds generalizing tight with
  | nil => trivial
  | cons kind later inductionHypothesis =>
    obtain ⟨here, behind⟩ := List.forall_mem_cons.mp writable
    refine ⟨?_, ?_, inductionHypothesis behind _⟩
    · dsimp only
      split
      · exact .nil
      · exact .blank (by decide) .nil
    · by_cases paren : kind = .openParen
      · subst paren
        exact readsAs_openParen _
      · have same : sourceOf (spelled (kind = .openParen) later) ++ [] = rendered false later := by
          simp [rendered, paren]
        rw [same]
        refine here.swap (here.isTerminated (by simp))
          ((endsToken_rendered later).offersNoMore _) ?_
        intro dash _
        exact absurd (head?_rendered dash) (by decide)

/-- A row of kinds that are read back alone is scanned into its tokens. -/
theorem scan_rendered {kinds : List TokenKind} (writable : ∀ kind ∈ kinds, kind.IsWritable)
    (tight : Bool) : scan (rendered tight kinds) = ⟨placed 0 (spelled tight kinds), []⟩ := by
  have scanned := scanFrom_sourceOf (inPlace_spelled writable tight) rfl 0
  rw [List.append_nil] at scanned
  rw [scan, rendered, scanned]

/-- So the kinds are read back. -/
theorem kinds_scan_rendered {kinds : List TokenKind}
    (writable : ∀ kind ∈ kinds, kind.IsWritable) (tight : Bool) :
    (scan (rendered tight kinds)).tokens.map Token.kind = kinds := by
  rw [scan_rendered writable, kinds_placed, kinds_spelled]

/-- No digit starts a word. -/
theorem isDigit_eq_false_of_startsWord {c : Char} (starts : startsWord c = true) :
    isDigit c = false := by
  have digits : ∀ code ∈ List.range' 48 10, startsWord (Char.ofNat code) = false := by
    decide +kernel
  cases digit : isDigit c with
  | false => rfl
  | true =>
    simp only [isDigit, Bool.and_eq_true, decide_eq_true_eq] at digit
    have lower : 48 ≤ c.toNat := digit.1
    have upper : c.toNat ≤ 57 := digit.2
    have here := digits c.toNat (List.mem_range'_1.mpr ⟨lower, by omega⟩)
    rw [Char.ofNat_toNat, starts] at here
    exact here

/-- A word starts with no sign and with no digit. -/
theorem lexToken_word {c : Char} (starts : startsWord c = true) (later : List Char) :
    lexToken c later = lexWord c later := by
  have apart : ∀ d, startsWord d = false → c ≠ d := by
    rintro d stops rfl
    simp [stops] at starts
  have symbol : symbolKind? c = none := by
    simp [symbolKind?, apart '=' (by decide), apart '(' (by decide), apart ')' (by decide),
      apart ',' (by decide), apart '*' (by decide), apart '.' (by decide)]
  simp [lexToken, symbol, starts, isDigit_eq_false_of_startsWord starts, apart '<' (by decide),
    apart '>' (by decide), apart '!' (by decide), apart '\'' (by decide), apart '"' (by decide),
    apart '-' (by decide)]

/-- A word is read up to anything that no word goes on with and that is no quote. -/
theorem readsAs_word_before {c : Char} {tail rest : List Char} (starts : startsWord c = true)
    (continues : ∀ d ∈ tail, continuesWord d = true)
    (stops : ∀ d ∈ rest.head?, continuesWord d = false ∧ d ≠ '\'') :
    ReadsAs (wordKind (c :: tail)) (c :: tail) rest := by
  have visible : isBlank c = false := by
    cases blank : isBlank c with
    | false => rfl
    | true =>
      have ends := extendsToken_of_isBlank blank
      rw [extendsToken_of_continuesWord (Text.continuesWord_of_startsWord c starts)] at ends
      exact ends
  have noDash : c ≠ '-' := by
    rintro rfl
    exact absurd starts (by decide)
  have whole : splitWord (tail ++ rest) = ⟨tail, rest⟩ := by
    rw [splitWord, List.takeWhile_append_of_pos continues, List.dropWhile_append_of_pos continues]
    cases rest with
    | nil => simp
    | cons d later => simp [(stops d rfl).1]
  have plain : ¬ ((c = 'E' ∨ c = 'e') ∧ (tail ++ rest).head? = some '\'') := by
    rintro ⟨_, quoteAhead⟩
    cases tail with
    | nil => exact (stops '\'' quoteAhead).2 rfl
    | cons d tail =>
      obtain rfl : d = '\'' := by simpa using quoteAhead
      exact absurd (continues '\'' List.mem_cons_self) (by decide)
  refine ⟨?_, c, tail, rfl, ?_⟩
  · rw [List.cons_append, startsVisible_cons_iff]
    exact ⟨visible, fun dash => noDash dash.1⟩
  · rw [lexToken_word starts, lexWord_plain plain, whole]

/-- A word is read back. -/
theorem readsAs_word {c : Char} {tail : List Char} (starts : startsWord c = true)
    (continues : ∀ d ∈ tail, continuesWord d = true) :
    ReadsAs (wordKind (c :: tail)) (c :: tail) [' '] := by
  refine readsAs_word_before starts continues ?_
  rintro d ⟨⟩
  decide

/-- Every keyword is read back. -/
theorem isWritable_keyword (word : Keyword) : (TokenKind.keyword word).IsWritable := by
  cases word <;>
    exact ⟨by decide, _, _, rfl, by decide +kernel⟩

end MetricQuery
