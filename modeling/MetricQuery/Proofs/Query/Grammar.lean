import MetricQuery.Proofs.Query.Quotes
import MetricQuery.Proofs.Query.Sentence
import MetricQuery.Proofs.Text.Ascii
import MetricQuery.Proofs.Token.Layout
import MetricQuery.Proofs.Token.Spelling

/-!
# The grammar of the query language

The grammar says which words a query can be written in, one word for each token.
Keywords may be in any case, names bare or in double quotes, values in single
quotes, bare, or numbers. Between two words stands at least one blank or comment.
None of this mentions how a text is scanned or read.

The main statement is that every text of the grammar is read as the query it was
written for: its items, its table, its conditions and its grouping, each in order.
-/

namespace MetricQuery

open Text (isBlank isDigit startsWord continuesWord)

/-- A bare name: a word that is no keyword in any case. -/
structure IsBareName (word : List Char) : Prop where
  /-- A word starts with a letter or an underscore, and numerals may follow. -/
  shape : ∃ c tail, word = c :: tail ∧ startsWord c = true ∧ ∀ d ∈ tail, continuesWord d = true
  /-- The word is no keyword. -/
  noKeyword : ∀ keyword : Keyword, word.map Char.toLower ≠ keyword.word

/-- The test whether a word is a bare name. -/
def isBareName : List Char → Bool
  | [] => false
  | c :: tail =>
      startsWord c && tail.all continuesWord &&
        Keyword.all.all fun keyword => keyword.word != (c :: tail).map Char.toLower

/-- The test finds exactly the bare names. -/
theorem isBareName_iff {word : List Char} : isBareName word = true ↔ IsBareName word := by
  cases word with
  | nil =>
    constructor
    · exact nofun
    · rintro ⟨⟨_, _, same, _⟩, _⟩
      exact nomatch same
  | cons c tail =>
    simp only [isBareName, Bool.and_eq_true, List.all_eq_true, bne_iff_ne]
    constructor
    · rintro ⟨⟨starts, continues⟩, noKeyword⟩
      refine ⟨⟨c, tail, rfl, starts, continues⟩, ?_⟩
      intro keyword same
      have listed : keyword ∈ Keyword.all := by cases keyword <;> decide
      exact noKeyword keyword listed same.symm
    · rintro ⟨⟨first, later, same, starts, continues⟩, noKeyword⟩
      obtain ⟨rfl, rfl⟩ := List.cons.inj same
      exact ⟨⟨starts, continues⟩, fun keyword _ same => noKeyword keyword same.symm⟩

instance : DecidablePred IsBareName := fun _ => decidable_of_iff _ isBareName_iff

/-- A keyword is written in any case of its letters. -/
def WritesKeyword (keyword : Keyword) (word : List Char) : Prop :=
  word.map Char.toLower = keyword.word

instance (keyword : Keyword) : DecidablePred (WritesKeyword keyword) := fun word =>
  inferInstanceAs (Decidable (word.map Char.toLower = keyword.word))

/-- A name is written bare, or in double quotes with the quotes in it doubled. -/
inductive WritesName : String → List Char → Prop where
  | bare {name : String} (word : IsBareName name.toList) : WritesName name name.toList
  | quoted (name : String) : WritesName name (inQuotes '"' name.toList)

/-- A field is a name or a star. -/
inductive WritesField : String → List Char → Prop where
  | name {field : String} {word : List Char} (written : WritesName field word) :
      WritesField field word
  | star : WritesField "*" ['*']

/-- One digit or more. -/
def IsDigits (text : List Char) : Prop := text ≠ [] ∧ text.all isDigit = true

/-- Digits, perhaps with a point and further digits behind them. -/
inductive IsUnsigned : List Char → Prop where
  | whole {digits : List Char} (some : IsDigits digits) : IsUnsigned digits
  | fraction {digits decimals : List Char} (some : IsDigits digits)
      (someDecimals : IsDigits decimals) : IsUnsigned (digits ++ '.' :: decimals)

/-- A number literal may have a minus sign. -/
inductive IsNumber : List Char → Prop where
  | unsigned {text : List Char} (number : IsUnsigned text) : IsNumber text
  | negative {text : List Char} (number : IsUnsigned text) : IsNumber ('-' :: text)

/-- A value is written in single quotes with the quotes in it doubled, as a bare name,
or as a number. -/
inductive WritesValue : String → List Char → Prop where
  | quoted (value : String) : WritesValue value (inQuotes '\'' value.toList)
  | bare {value : String} (word : IsBareName value.toList) : WritesValue value value.toList
  | number {value : String} (number : IsNumber value.toList) : WritesValue value value.toList

/-- An item of a select list is a field, or a call of a function with a field, perhaps
with another name for its column. -/
inductive WritesItem : SelectItem → List (List Char) → Prop where
  | field {name : String} {word : List Char} (written : WritesField name word) :
      WritesItem (.field name) [word]
  | call {function name : String} {word : List Char} (bare : IsBareName function.toList)
      (written : WritesField name word) :
      WritesItem (.aggregation ⟨.ofName function, name, name⟩)
        [function.toList, ['('], word, [')']]
  | callAs {function name column : String} {word asWord columnWord : List Char}
      (bare : IsBareName function.toList) (written : WritesField name word)
      (keyword : WritesKeyword .AS asWord) (renamed : WritesName column columnWord) :
      WritesItem (.aggregation ⟨.ofName function, name, column⟩)
        [function.toList, ['('], word, [')'], asWord, columnWord]

/-- A comparison is written as its sign, or as its keyword. -/
def WritesComparison : Comparison → List Char → Prop
  | .like, word => WritesKeyword .LIKE word
  | sign, word => word = sign.symbol.toList

/-- A condition is a field, a comparison and a value. -/
inductive WritesCondition : Condition → List (List Char) → Prop where
  | intro {field value : String} {comparison : Comparison} {fieldWord sign valueWord : List Char}
      (named : WritesName field fieldWord) (compared : WritesComparison comparison sign)
      (written : WritesValue value valueWord) :
      WritesCondition ⟨field, comparison, value⟩ [fieldWord, sign, valueWord]

/-- A list has one entry or more, with a separator between each two of them. -/
inductive WritesList {α : Type} (WritesOne : α → List (List Char) → Prop)
    (Separates : List Char → Prop) : List α → List (List Char) → Prop where
  | single {entry : α} {words : List (List Char)} (written : WritesOne entry words) :
      WritesList WritesOne Separates [entry] words
  | cons {entry : α} {later : List α} {words rest : List (List Char)} {separator : List Char}
      (written : WritesOne entry words) (separates : Separates separator)
      (more : WritesList WritesOne Separates later rest) :
      WritesList WritesOne Separates (entry :: later) (words ++ separator :: rest)

/-- Conditions stand behind their keyword; without any the keyword is left out. -/
inductive WritesConditions : List Condition → List (List Char) → Prop where
  | none : WritesConditions [] []
  | some {conditions : List Condition} {whereWord : List Char} {words : List (List Char)}
      (keyword : WritesKeyword .WHERE whereWord)
      (list : WritesList WritesCondition (WritesKeyword .AND) conditions words) :
      WritesConditions conditions (whereWord :: words)

/-- The fields of a grouping stand behind its two keywords; without any these are left out. -/
inductive WritesGrouping : List String → List (List Char) → Prop where
  | none : WritesGrouping [] []
  | some {fields : List String} {groupWord byWord : List Char} {words : List (List Char)}
      (keyword : WritesKeyword .GROUP groupWord) (second : WritesKeyword .BY byWord)
      (list : WritesList (fun field words => ∃ word, words = [word] ∧ WritesName field word)
        (· = [',']) fields words) :
      WritesGrouping fields (groupWord :: byWord :: words)

/-- A query is a select list, a table, and then conditions and a grouping if there are any. -/
inductive WritesQuery :
    List SelectItem → String → List Condition → List String → List (List Char) → Prop where
  | intro {items : List SelectItem} {table : String} {conditions : List Condition}
      {grouping : List String} {selectWord fromWord tableWord : List Char}
      {itemWords conditionWords groupingWords : List (List Char)}
      (first : WritesKeyword .SELECT selectWord)
      (list : WritesList WritesItem (· = [',']) items itemWords)
      (second : WritesKeyword .FROM fromWord) (named : WritesName table tableWord)
      (filtered : WritesConditions conditions conditionWords)
      (grouped : WritesGrouping grouping groupingWords) :
      WritesQuery items table conditions grouping
        (selectWord :: (itemWords ++ fromWord :: tableWord :: (conditionWords ++ groupingWords)))

/-- A text of words with some blanks or comments between each two of them. Every
comment ends with its line. -/
inductive Spaced : List (List Char) → List Char → Prop where
  | single (word : List Char) : Spaced [word] word
  | cons (word : List Char) {later : List (List Char)} {gap text : List Char}
      (skipped : Gap false gap) (some : gap ≠ []) (more : Spaced later text) :
      Spaced (word :: later) (word ++ gap ++ text)

/-- A word is a token of a kind, wherever no token can run into it. A dash alone is
left out, since a comment could start with it. -/
structure ReadsAlone (kind : TokenKind) (word : List Char) : Prop where
  /-- The word is read as a whole. -/
  reads : ReadsAs kind word [' ']
  /-- The word is no dash. -/
  noDash : word ≠ ['-']

/-- A word is the same token before every text that no token can run into. -/
theorem ReadsAlone.before {kind : TokenKind} {word rest : List Char} (alone : ReadsAlone kind word)
    (ends : EndsToken rest) : ReadsAs kind word rest :=
  alone.reads.swap (alone.reads.isTerminated (by simp)) (ends.offersNoMore _)
    fun _ dash => absurd dash alone.noDash

/-- A word is some tokens, wherever no token can run into it. -/
def ReadsTogether (kinds : List TokenKind) (word : List Char) : Prop :=
  ∀ front rest, Gap false front → EndsToken rest →
    ∃ tokens, tokens.map Token.kind = kinds ∧ sourceOf tokens = front ++ word ∧ InPlace tokens rest

/-- A word that is one token is this token alone. -/
theorem ReadsAlone.together {kind : TokenKind} {word : List Char} (alone : ReadsAlone kind word) :
    ReadsTogether [kind] word := by
  intro front rest skipped ends
  refine ⟨[⟨kind, front, word, 0⟩], rfl, by simp [sourceOf], skipped, ?_, trivial⟩
  exact alone.before ends

/-- Words that are tokens of some kinds, one word after the other. -/
inductive ReadsEach : List TokenKind → List (List Char) → Prop where
  | nil : ReadsEach [] []
  | together {kinds later : List TokenKind} {word : List Char} {words : List (List Char)}
      (here : ReadsTogether kinds word) (behind : ReadsEach later words) :
      ReadsEach (kinds ++ later) (word :: words)

/-- Words of which the first one is one token. -/
theorem ReadsEach.cons {kind : TokenKind} {later : List TokenKind} {word : List Char}
    {words : List (List Char)} (alone : ReadsAlone kind word) (behind : ReadsEach later words) :
    ReadsEach (kind :: later) (word :: words) :=
  .together alone.together behind

/-- The tokens of a spaced text are those of its words. -/
theorem Spaced.inPlace {words : List (List Char)} {text : List Char} (spaced : Spaced words text)
    {kinds : List TokenKind} (each : ReadsEach kinds words) {front : List Char}
    (skipped : Gap false front) :
    ∃ tokens, tokens.map Token.kind = kinds ∧ InPlace tokens [] ∧
      sourceOf tokens = front ++ text := by
  induction spaced generalizing kinds front with
  | single word =>
    cases each with
    | together here behind =>
      cases behind
      obtain ⟨tokens, same, source, inPlace⟩ := here front [] skipped nofun
      exact ⟨tokens, by simpa using same, inPlace, source⟩
  | @cons word later gap text between some more inductionHypothesis =>
    cases each with
    | together here behind =>
      obtain ⟨laterTokens, laterSame, laterInPlace, laterSource⟩ :=
        inductionHypothesis behind between
      obtain ⟨tokens, same, source, inPlace⟩ :=
        here front (gap ++ text) skipped (between.endsToken some text)
      refine ⟨tokens ++ laterTokens, by simp [same, laterSame], ?_, ?_⟩
      · refine InPlace.concat ?_ laterInPlace
        rwa [laterSource, List.append_nil]
      · rw [sourceOf, List.flatMap_append, ← sourceOf, ← sourceOf, source, laterSource]
        simp

/-- So the kinds of its tokens are those of its words. -/
theorem Spaced.kinds_scan {words : List (List Char)} {text : List Char} (spaced : Spaced words text)
    {kinds : List TokenKind} (each : ReadsEach kinds words) :
    (scan text).tokens.map Token.kind = kinds := by
  obtain ⟨tokens, same, inPlace, source⟩ := spaced.inPlace each Gap.nil
  have scanned := scanFrom_sourceOf inPlace rfl 0
  rw [List.append_nil, source, List.nil_append] at scanned
  rw [scan, scanned, kinds_placed, same]

/-- What is a letter when it is made small is a letter. -/
theorem startsWord_of_toLower {c : Char} (small : startsWord c.toLower = true) :
    startsWord c = true := by
  have capitals : ∀ code ∈ List.range' 65 26, startsWord (Char.ofNat code) = true := by
    decide +kernel
  rcases Text.toLower_cases c with capital | same
  · have here := capitals c.toNat capital
    rwa [Char.ofNat_toNat] at here
  · rwa [same] at small

/-- A keyword is read in any case. -/
theorem readsAlone_keyword {keyword : Keyword} {word : List Char}
    (written : WritesKeyword keyword word) : ReadsAlone (.keyword keyword) word := by
  have letters : keyword.word.all startsWord = true := by
    cases keyword <;> decide +kernel
  have found : Keyword.ofWord? word = some keyword := by
    rw [Keyword.ofWord?, written]
    cases keyword <;> decide
  have starts : ∀ c ∈ word, startsWord c = true := by
    intro c member
    refine startsWord_of_toLower (List.all_eq_true.mp letters _ ?_)
    rw [← written]
    exact List.mem_map_of_mem member
  cases word with
  | nil => cases keyword <;> simp [WritesKeyword, Keyword.word] at written
  | cons c tail =>
    have reads := readsAs_word (starts c List.mem_cons_self) fun d member =>
      Text.continuesWord_of_startsWord d (starts d (List.mem_cons_of_mem _ member))
    rw [wordKind, found] at reads
    refine ⟨reads, ?_⟩
    rintro ⟨⟩
    exact absurd (starts '-' List.mem_cons_self) (by decide)

/-- A bare name is a word that is a name. -/
theorem IsBareName.wordKind {word : List Char} (bare : IsBareName word) :
    MetricQuery.wordKind word = .name word := by
  have none : Keyword.ofWord? word = none := by
    rw [Keyword.ofWord?, List.find?_eq_none]
    intro keyword _
    rw [decide_eq_true_eq]
    exact Ne.symm (bare.noKeyword keyword)
  rw [MetricQuery.wordKind, none]

/-- A bare name is read as itself. -/
theorem readsAlone_bareName {word : List Char} (bare : IsBareName word) :
    ReadsAlone (.name word) word := by
  have kind := bare.wordKind
  obtain ⟨c, tail, rfl, starts, continues⟩ := bare.shape
  refine ⟨kind ▸ readsAs_word starts continues, ?_⟩
  rintro ⟨⟩
  exact absurd starts (by decide)

/-- A name is read as a token that has it. -/
theorem readsAlone_name {name : String} {word : List Char} (written : WritesName name word) :
    ∃ spelling : NameSpelling, ReadsAlone spelling.kind word ∧
      String.ofList spelling.text = name := by
  cases written with
  | bare bare =>
    exact ⟨.bare name.toList, readsAlone_bareName bare, String.ofList_toList⟩
  | quoted =>
    refine ⟨.quoted (double '"' name.toList), ⟨?_, by simp [inQuotes]⟩, ?_⟩
    · exact readsAs_doubleQuoted name.toList (by simp)
    · rw [NameSpelling.text, undouble_double, String.ofList_toList]

/-- A field is read as a token that refers to it. -/
theorem readsAlone_field {field : String} {word : List Char} (written : WritesField field word) :
    ∃ spelling : FieldSpelling, ReadsEach spelling.kinds [word] ∧
      String.ofList spelling.text = field := by
  cases written with
  | name named =>
    obtain ⟨spelling, alone, same⟩ := readsAlone_name named
    exact ⟨.plain spelling, .cons alone .nil, same⟩
  | star =>
    have alone : ReadsAlone .star ['*'] := ⟨⟨by decide, _, _, rfl, by decide⟩, by decide⟩
    exact ⟨.star, .cons alone .nil, by decide⟩

/-- Digits are the start of a number. -/
theorem splitNumber_digits {digits : List Char} (all : digits.all isDigit = true)
    (pointSeen : Bool) (rest : List Char) :
    splitNumber pointSeen (digits ++ rest) =
      ⟨digits ++ (splitNumber pointSeen rest).taken, (splitNumber pointSeen rest).rest⟩ := by
  induction digits with
  | nil => rfl
  | cons d digits inductionHypothesis =>
    obtain ⟨digit, behind⟩ : isDigit d = true ∧ digits.all isDigit = true := by simpa using all
    simp [splitNumber, digit, inductionHypothesis behind, Split.cons]

/-- A number without a sign is taken as a whole, and it starts with a digit. -/
theorem IsUnsigned.splitNumber {text : List Char} (number : IsUnsigned text) :
    splitNumber false (text ++ [' ']) = ⟨text, [' ']⟩ ∧
      ∃ d tail, text = d :: tail ∧ isDigit d = true := by
  have stops (pointSeen : Bool) : MetricQuery.splitNumber pointSeen [' '] = ⟨[], [' ']⟩ := by
    cases pointSeen <;> decide
  have starts {digits : List Char} (some : IsDigits digits) (rest : List Char) :
      ∃ d tail, digits ++ rest = d :: tail ∧ isDigit d = true := by
    obtain ⟨d, tail, rfl⟩ := List.exists_cons_of_ne_nil some.1
    exact ⟨d, tail ++ rest, rfl, List.all_eq_true.mp some.2 d List.mem_cons_self⟩
  cases number with
  | whole some =>
    refine ⟨?_, by simpa using starts some []⟩
    rw [splitNumber_digits some.2, stops, List.append_nil]
  | @fraction digits decimals some someDecimals =>
    refine ⟨?_, starts some _⟩
    have ahead : digitAhead (decimals ++ [' ']) = true := by
      obtain ⟨d, tail, shape, digit⟩ := starts someDecimals [' ']
      rw [shape]
      exact digit
    have point : MetricQuery.splitNumber false ('.' :: (decimals ++ [' '])) =
        ⟨'.' :: decimals, [' ']⟩ := by
      have noDigit : isDigit '.' = false := by decide
      have decimalsTaken := splitNumber_digits someDecimals.2 true [' ']
      rw [stops, List.append_nil] at decimalsTaken
      simp [MetricQuery.splitNumber, noDigit, ahead, decimalsTaken, Split.cons]
    rw [List.append_assoc, List.cons_append, splitNumber_digits some.2, point]

/-- A digit starts a number. -/
theorem lexToken_digit {c : Char} (digit : isDigit c = true) (later : List Char) :
    lexToken c later = lexNumber c later := by
  have apart : ∀ d, isDigit d = false → c ≠ d := by
    rintro d stops rfl
    simp [stops] at digit
  have symbol : symbolKind? c = none := by
    simp [symbolKind?, apart '=' (by decide), apart '(' (by decide), apart ')' (by decide),
      apart ',' (by decide), apart '*' (by decide), apart '.' (by decide)]
  simp [lexToken, symbol, digit, apart '<' (by decide), apart '>' (by decide),
    apart '!' (by decide), apart '\'' (by decide), apart '"' (by decide)]

/-- A number is read as itself. -/
theorem readsAlone_number {text : List Char} (number : IsNumber text) :
    ReadsAlone (.number text) text := by
  cases number with
  | unsigned number =>
    obtain ⟨whole, d, tail, rfl, digit⟩ := number.splitNumber
    have noDash : d ≠ '-' := by
      rintro rfl
      exact absurd digit (by decide)
    rw [List.cons_append, splitNumber, if_pos digit, Split.cons_eq_iff] at whole
    refine ⟨⟨?_, d, tail, rfl, ?_⟩, fun dash => noDash (List.cons.inj dash).1⟩
    · rw [List.cons_append, startsVisible_cons_iff]
      exact ⟨Text.isBlank_of_isDigit digit, fun dash => noDash dash.1⟩
    · rw [lexToken_digit digit, lexNumber, whole]
  | @negative text number =>
    obtain ⟨whole, d, tail, rfl, digit⟩ := number.splitNumber
    have noDash : d ≠ '-' := by
      rintro rfl
      exact absurd digit (by decide)
    have minus : lexToken '-' (d :: tail ++ [' ']) = lexNumber '-' (d :: tail ++ [' ']) := by
      simp [lexToken, symbolKind?, digitAhead, digit]
    refine ⟨⟨?_, '-', d :: tail, rfl, ?_⟩, by simp⟩
    · rw [List.cons_append, startsVisible_cons_iff]
      exact ⟨by decide, fun dash => noDash (by simpa using dash.2)⟩
    · rw [minus, lexNumber, whole]

/-- A value is read as a token that writes it. -/
theorem readsAlone_value {value : String} {word : List Char} (written : WritesValue value word) :
    ∃ spelling : ValueSpelling, ReadsAlone spelling.kind word ∧
      String.ofList spelling.text = value := by
  cases written with
  | quoted =>
    refine ⟨.string (double '\'' value.toList), ⟨?_, by simp [inQuotes]⟩, ?_⟩
    · exact readsAs_singleQuoted value.toList (by simp)
    · rw [ValueSpelling.text, undouble_double, String.ofList_toList]
  | bare bare =>
    exact ⟨.word (.bare value.toList), readsAlone_bareName bare, String.ofList_toList⟩
  | number number =>
    exact ⟨.number value.toList, readsAlone_number number, String.ofList_toList⟩

/-- A comparison is read as its token. -/
theorem readsAlone_comparison {comparison : Comparison} {word : List Char}
    (written : WritesComparison comparison word) : ReadsAlone comparison.kind word := by
  cases comparison with
  | like => exact readsAlone_keyword written
  | _ =>
    subst written
    exact ⟨⟨by decide, _, _, rfl, by decide⟩, by decide⟩

/-- A comma is read as itself. -/
theorem readsAlone_comma {word : List Char} (written : word = [',']) : ReadsAlone .comma word := by
  subst written
  exact ⟨⟨by decide, _, _, rfl, by decide⟩, by decide⟩

/-- Words of two parts are read part by part. -/
theorem ReadsEach.append {front back : List TokenKind} {words later : List (List Char)}
    (each : ReadsEach front words) (behind : ReadsEach back later) :
    ReadsEach (front ++ back) (words ++ later) := by
  induction each with
  | nil => exact behind
  | together here _ inductionHypothesis =>
    rw [List.append_assoc, List.cons_append]
    exact .together here inductionHypothesis

/-- A call of a function with a field is read as its tokens, and what follows it as its column. -/
theorem ReadsEach.call {function : String} {word : List Char} {field : FieldSpelling}
    {column : Option NameSpelling} {words : List (List Char)} (each : ReadsEach field.kinds [word])
    (bare : IsBareName function.toList) (behind : ReadsEach (ItemSpelling.columnKinds column) words) :
    ReadsEach (ItemSpelling.call function.toList field column).kinds
      (function.toList :: ['('] :: word :: [')'] :: words) := by
  have opens : ReadsAlone .openParen ['('] := ⟨⟨by decide, _, _, rfl, by decide⟩, by decide⟩
  have closes : ReadsAlone .closeParen [')'] := ⟨⟨by decide, _, _, rfl, by decide⟩, by decide⟩
  exact .cons (readsAlone_bareName bare) (.cons opens (each.append (.cons closes behind)))

/-- The name of a column is read as its tokens. -/
theorem readsEach_column {column : String} {asWord columnWord : List Char}
    (keyword : WritesKeyword .AS asWord) (renamed : WritesName column columnWord) :
    ∃ spelling : NameSpelling,
      ReadsEach (ItemSpelling.columnKinds (some spelling)) [asWord, columnWord] ∧
        String.ofList spelling.text = column := by
  obtain ⟨spelling, alone, same⟩ := readsAlone_name renamed
  exact ⟨spelling, .cons (readsAlone_keyword keyword) (.cons alone .nil), same⟩

/-- An item of a select list is read as its tokens. -/
theorem readsEach_item {item : SelectItem} {words : List (List Char)}
    (written : WritesItem item words) :
    ∃ spelling : ItemSpelling, ReadsEach spelling.kinds words ∧ spelling.query = item.query := by
  cases written with
  | field written =>
    obtain ⟨spelling, each, rfl⟩ := readsAlone_field written
    exact ⟨.field spelling, each, rfl⟩
  | call bare written =>
    obtain ⟨spelling, each, rfl⟩ := readsAlone_field written
    exact ⟨.call _ spelling none, each.call bare .nil, by simp [ItemSpelling.query, SelectItem.query]⟩
  | callAs bare written keyword renamed =>
    obtain ⟨spelling, each, rfl⟩ := readsAlone_field written
    obtain ⟨column, behind, rfl⟩ := readsEach_column keyword renamed
    exact ⟨.call _ spelling (some column), each.call bare behind,
      by simp [ItemSpelling.query, SelectItem.query]⟩

/-- A comparison and a value are read as their tokens. -/
theorem readsEach_compared {value : String} {comparison : Comparison} {sign valueWord : List Char}
    (compared : WritesComparison comparison sign) (written : WritesValue value valueWord) :
    ∃ spelling : ValueSpelling, ReadsEach [comparison.kind, spelling.kind] [sign, valueWord] ∧
      String.ofList spelling.text = value := by
  obtain ⟨spelling, alone, same⟩ := readsAlone_value written
  exact ⟨spelling, .cons (readsAlone_comparison compared) (.cons alone .nil), same⟩

/-- A condition is read as its tokens. -/
theorem readsEach_condition {condition : Condition} {words : List (List Char)}
    (written : WritesCondition condition words) :
    ∃ spelling : ConditionSpelling, ReadsEach spelling.kinds words ∧
      spelling.condition = condition := by
  obtain ⟨named, compared, valued⟩ := written
  rename_i comparison _ _ _
  obtain ⟨field, fieldAlone, rfl⟩ := readsAlone_name named
  obtain ⟨value, behind, rfl⟩ := readsEach_compared compared valued
  exact ⟨⟨field, comparison, value⟩, .cons fieldAlone behind, rfl⟩

/-- A list is read entry by entry, with the separators between them. -/
theorem readsEach_list {α β σ : Type} {WritesOne : α → List (List Char) → Prop}
    {Separates : List Char → Prop} {kindsOf : σ → List TokenKind} {separator : TokenKind}
    {meaning : σ → β} {asked : α → β} {entries : List α} {words : List (List Char)}
    (list : WritesList WritesOne Separates entries words)
    (one : ∀ entry words, WritesOne entry words →
      ∃ spelling, ReadsEach (kindsOf spelling) words ∧ meaning spelling = asked entry)
    (separates : ∀ word, Separates word → ReadsAlone separator word) :
    ∃ spellings : List σ, spellings ≠ [] ∧
      ReadsEach (separated separator (spellings.map kindsOf)) words ∧
      spellings.map meaning = entries.map asked := by
  induction list with
  | single written =>
    obtain ⟨spelling, each, same⟩ := one _ _ written
    exact ⟨[spelling], List.cons_ne_nil _ _, each, by simp [same]⟩
  | cons written mark more inductionHypothesis =>
    obtain ⟨spelling, each, same⟩ := one _ _ written
    obtain ⟨later, some, behind, laterSame⟩ := inductionHypothesis
    obtain ⟨second, others, rfl⟩ := List.exists_cons_of_ne_nil some
    refine ⟨spelling :: second :: others, List.cons_ne_nil _ _, ?_, by simp [same, ← laterSame]⟩
    exact each.append (.cons (separates _ mark) behind)

/-- Conditions are read as their tokens. -/
theorem readsEach_conditions {conditions : List Condition} {words : List (List Char)}
    (written : WritesConditions conditions words) :
    ∃ spellings : List ConditionSpelling,
      ReadsEach (listKinds [.keyword .WHERE] (.keyword .AND)
        (spellings.map ConditionSpelling.kinds)) words ∧
      spellings.map ConditionSpelling.condition = conditions := by
  cases written with
  | none => exact ⟨[], .nil, rfl⟩
  | some keyword list =>
    obtain ⟨spellings, some, each, same⟩ :=
      readsEach_list list (fun _ _ => readsEach_condition) (fun _ => readsAlone_keyword)
    refine ⟨spellings, ?_, by simpa using same⟩
    rw [listKinds, if_neg (by simpa using some)]
    exact .cons (readsAlone_keyword keyword) each

/-- A grouping is read as its tokens. -/
theorem readsEach_grouping {fields : List String} {words : List (List Char)}
    (written : WritesGrouping fields words) :
    ∃ spellings : List FieldSpelling,
      ReadsEach (listKinds [.keyword .GROUP, .keyword .BY] .comma
        (spellings.map FieldSpelling.kinds)) words ∧
      spellings.map (fun field => String.ofList field.text) = fields := by
  cases written with
  | none => exact ⟨[], .nil, rfl⟩
  | some keyword second list =>
    have one (field : String) (words : List (List Char))
        (written : ∃ word, words = [word] ∧ WritesName field word) :
        ∃ spelling : FieldSpelling, ReadsEach spelling.kinds words ∧
          String.ofList spelling.text = id field := by
      obtain ⟨word, rfl, named⟩ := written
      exact readsAlone_field (.name named)
    obtain ⟨spellings, some, each, same⟩ := readsEach_list list one (fun _ => readsAlone_comma)
    refine ⟨spellings, ?_, by simpa using same⟩
    rw [listKinds, if_neg (by simpa using some)]
    exact .cons (readsAlone_keyword keyword) (.cons (readsAlone_keyword second) each)

/-- The words of a query are read as the tokens of a sentence that writes it. -/
theorem readsEach_query {items : List SelectItem} {table : String} {conditions : List Condition}
    {grouping : List String} {words : List (List Char)}
    (written : WritesQuery items table conditions grouping words) :
    ∃ sentence : Sentence, ReadsEach sentence.kinds words ∧
      sentence.query =
        (mergeAll (items.map SelectItem.query)).merge { table, conditions, grouping } := by
  obtain ⟨first, list, second, named, filtered, grouped⟩ := written
  obtain ⟨itemSpellings, _, itemsEach, itemsSame⟩ :=
    readsEach_list list (fun _ _ => readsEach_item) (fun _ => readsAlone_comma)
  obtain ⟨tableSpelling, tableAlone, rfl⟩ := readsAlone_name named
  obtain ⟨conditionSpellings, conditionsEach, rfl⟩ := readsEach_conditions filtered
  obtain ⟨groupingSpellings, groupingEach, rfl⟩ := readsEach_grouping grouped
  refine ⟨⟨itemSpellings, tableSpelling, conditionSpellings, groupingSpellings⟩, ?_, ?_⟩
  · exact .cons (readsAlone_keyword first) (itemsEach.append (.cons (readsAlone_keyword second)
      (.cons tableAlone (conditionsEach.append groupingEach))))
  · rw [Sentence.query, itemsSame]

/-- The field that an item selects, if it is one. -/
def SelectItem.field? : SelectItem → Option String
  | field name => some name
  | aggregation _ => none

/-- The aggregation that an item asks for, if it is one. -/
def SelectItem.aggregation? : SelectItem → Option Aggregation
  | field _ => none
  | aggregation call => some call

/-- The items of a select list ask for the fields among them and the aggregations
among them, each in order. -/
theorem mergeAll_selectItems (items : List SelectItem) :
    mergeAll (items.map SelectItem.query) = {
      fields := items.filterMap SelectItem.field?
      aggregations := items.filterMap SelectItem.aggregation? } := by
  induction items with
  | nil => rfl
  | cons item items inductionHypothesis =>
    rw [List.map_cons, mergeAll, List.foldr_cons, ← mergeAll, inductionHypothesis]
    cases item <;> rfl

/-- Every text of the grammar is read as the query it was written for. -/
theorem grammar_reads_back {items : List SelectItem} {table : String}
    {conditions : List Condition} {grouping : List String} {words : List (List Char)}
    {text : String} (written : WritesQuery items table conditions grouping words)
    (spaced : Spaced words text.toList) :
    Query.ofText text = {
      fields := items.filterMap SelectItem.field?
      aggregations := items.filterMap SelectItem.aggregation?
      table
      conditions
      grouping } := by
  obtain ⟨sentence, each, same⟩ := readsEach_query written
  rw [Query.ofText, Sentence.ofTokens_of_kinds (spaced.kinds_scan each), same,
    mergeAll_selectItems]
  simp [Query.merge]

/-- Keywords in mixed case, a comment and a wide blank between words, a renamed call
of a star, doubled quotes, a negative number and a backslash are read as they are meant. -/
theorem grammar_reads_back_varied :
    Query.ofText
      "sElEcT Sum ( * ) as \"T\" --,\n, n\u3000FROM t where \"x\"\"y\" >= -1.5 AND n liKe 'it''s \\' group By n" = {
      fields := ["n"]
      aggregations := [⟨.sum, "*", "T"⟩]
      table := "t"
      conditions := [⟨"x\"y", .atLeast, "-1.5"⟩, ⟨"n", .like, "it's \\"⟩]
      grouping := ["n"] } := by
  have bare : IsBareName "n".toList ∧ IsBareName "t".toList ∧ IsBareName "Sum".toList := by
    decide
  have unsigned : IsUnsigned (['1'] ++ '.' :: ['5']) :=
    .fraction ⟨by decide, by decide⟩ ⟨by decide, by decide⟩
  have number : IsNumber "-1.5".toList := .negative unsigned
  have items : WritesList WritesItem (· = [','])
      [.aggregation ⟨.ofName "Sum", "*", "T"⟩, .field "n"]
      (["Sum", "(", "*", ")", "as", "\"T\"", ",", "n"].map String.toList) :=
    .cons (WritesItem.callAs bare.2.2 .star (by decide) (.quoted "T")) rfl
      (.single (WritesItem.field (.name (.bare bare.1))))
  have condition : WritesCondition ⟨"x\"y", .atLeast, "-1.5"⟩
      (["\"x\"\"y\"", ">=", "-1.5"].map String.toList) :=
    .intro (.quoted "x\"y") rfl (.number number)
  have like : WritesCondition ⟨"n", .like, "it's \\"⟩
      (["n", "liKe", "'it''s \\'"].map String.toList) :=
    .intro (.bare bare.1) (by decide : WritesKeyword .LIKE _) (.quoted "it's \\")
  have conditions : WritesConditions [⟨"x\"y", .atLeast, "-1.5"⟩, ⟨"n", .like, "it's \\"⟩]
      (["where", "\"x\"\"y\"", ">=", "-1.5", "AND", "n", "liKe", "'it''s \\'"].map String.toList) :=
    .some (by decide) (.cons condition (by decide) (.single like))
  have grouping : WritesGrouping ["n"] (["group", "By", "n"].map String.toList) :=
    .some (by decide) (by decide) (.single ⟨_, rfl, .bare bare.1⟩)
  have written := WritesQuery.intro (by decide : WritesKeyword .SELECT "sElEcT".toList) items
    (by decide : WritesKeyword .FROM "FROM".toList) (.bare bare.2.1) conditions grouping
  have space : Gap false " ".toList := .blank (by decide) .nil
  have wide : Gap false "\u3000".toList := .blank (by decide) .nil
  have comment : Gap false " --,\n".toList :=
    .blank (by decide) (.opens (.inside (by decide) (.ends .nil)))
  have spaced :=
    Spaced.cons "sElEcT".toList space nofun <|
    .cons "Sum".toList space nofun <|
    .cons "(".toList space nofun <|
    .cons "*".toList space nofun <|
    .cons ")".toList space nofun <|
    .cons "as".toList space nofun <|
    .cons "\"T\"".toList comment nofun <|
    .cons ",".toList space nofun <|
    .cons "n".toList wide nofun <|
    .cons "FROM".toList space nofun <|
    .cons "t".toList space nofun <|
    .cons "where".toList space nofun <|
    .cons "\"x\"\"y\"".toList space nofun <|
    .cons ">=".toList space nofun <|
    .cons "-1.5".toList space nofun <|
    .cons "AND".toList space nofun <|
    .cons "n".toList space nofun <|
    .cons "liKe".toList space nofun <|
    .cons "'it''s \\'".toList space nofun <|
    .cons "group".toList space nofun <|
    .cons "By".toList space nofun <|
    .single "n".toList
  refine (grammar_reads_back written ?_).trans (by decide +kernel)
  exact (congrArg (Spaced _) (by decide +kernel)).mp spaced

end MetricQuery
