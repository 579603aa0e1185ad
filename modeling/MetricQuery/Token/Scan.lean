import MetricQuery.Token
import MetricQuery.Text.Blank
import MetricQuery.Text.Letter

/-!
# Splitting a text into tokens

Scanning alternates between two steps. The first skips white space and
comments, where a comment starts with two dashes and runs through the end of
its line. The second reads one token, as many characters as its kind allows.
Both give what they took and what is left, and the two parts together are what
they were given, so a scan loses nothing and always ends.

Scanning never fails. A character that starts no token becomes a token by
itself, and a quoted token without its closing quote runs to the end of the
input.
-/

namespace MetricQuery

open Text (byteLength isBlank isDigit startsWord continuesWord)

/-- Two parts of a text: what was taken and what is left. -/
structure Split where
  /-- The characters that were taken. -/
  taken : List Char
  /-- The characters that follow them. -/
  rest : List Char
  deriving DecidableEq, Repr

/-- Take one more character in front. -/
def Split.cons (c : Char) (split : Split) : Split := ⟨c :: split.taken, split.rest⟩

/-- Skip white space and comments; `inComment` tells whether a comment is open. -/
def splitGap : Bool → List Char → Split
  | _, [] => ⟨[], []⟩
  | true, c :: later => (splitGap (c != '\n') later).cons c
  | false, '-' :: '-' :: later => ((splitGap true later).cons '-').cons '-'
  | false, c :: later => if isBlank c then (splitGap false later).cons c else ⟨[], c :: later⟩

/-- Take the characters that continue a word. -/
def splitWord (text : List Char) : Split :=
  ⟨text.takeWhile continuesWord, text.dropWhile continuesWord⟩

/-- Whether a text starts with a digit. -/
def digitAhead : List Char → Bool
  | [] => false
  | c :: _ => isDigit c

/-- Take the digits of a number, with one point among them if a digit follows
it; `pointSeen` tells whether the point is already behind. -/
def splitNumber : Bool → List Char → Split
  | _, [] => ⟨[], []⟩
  | pointSeen, c :: later =>
      if isDigit c then (splitNumber pointSeen later).cons c
      else if c = '.' && !pointSeen && digitAhead later then (splitNumber true later).cons c
      else ⟨[], c :: later⟩

/-- The body of a quoted text, whether its closing quote was found, and what follows. -/
structure QuotedSplit where
  /-- The characters between the quotes. -/
  body : List Char
  /-- Whether the closing quote was found. -/
  closed : Bool
  /-- The characters after the closing quote. -/
  rest : List Char
  deriving DecidableEq, Repr

/-- Put one more character in front of the body. -/
def QuotedSplit.cons (c : Char) (split : QuotedSplit) : QuotedSplit :=
  ⟨c :: split.body, split.closed, split.rest⟩

/-- The text of the split without what follows: the body and its closing quote. -/
def QuotedSplit.taken (quote : Char) (split : QuotedSplit) : List Char :=
  if split.closed then split.body ++ [quote] else split.body

/-- A closing quote that was found belongs to the text. -/
@[simp] theorem QuotedSplit.taken_closed (quote : Char) (body rest : List Char) :
    (QuotedSplit.mk body true rest).taken quote = body ++ [quote] := rfl

/-- Without a closing quote the body is the text. -/
@[simp] theorem QuotedSplit.taken_unclosed (quote : Char) (body rest : List Char) :
    (QuotedSplit.mk body false rest).taken quote = body := rfl

/-- A character in front of the body is in front of the whole text. -/
@[simp] theorem QuotedSplit.taken_cons (quote c : Char) (split : QuotedSplit) :
    (split.cons c).taken quote = c :: split.taken quote := by
  cases closed : split.closed <;> simp [QuotedSplit.taken, QuotedSplit.cons, closed]

/-- A character in front of the body changes nothing after it. -/
@[simp] theorem QuotedSplit.rest_cons (c : Char) (split : QuotedSplit) :
    (split.cons c).rest = split.rest := rfl

/-- Read up to the closing quote, where a doubled quote belongs to the body. -/
def splitQuoted (quote : Char) : List Char → QuotedSplit
  | [] => ⟨[], false, []⟩
  | [c] => if c = quote then ⟨[], true, []⟩ else ⟨[c], false, []⟩
  | c :: d :: later =>
      if c = quote then
        if d = quote then ((splitQuoted quote later).cons d).cons c else ⟨[], true, d :: later⟩
      else (splitQuoted quote (d :: later)).cons c

/-- Read up to the closing single quote, where a backslash keeps the character
after it in the body and a doubled quote belongs to the body. -/
def splitEscaped : List Char → QuotedSplit
  | [] => ⟨[], false, []⟩
  | [c] => if c = '\'' then ⟨[], true, []⟩ else ⟨[c], false, []⟩
  | c :: d :: later =>
      if c = '\\' then ((splitEscaped later).cons d).cons c
      else if c = '\'' then
        if d = '\'' then ((splitEscaped later).cons d).cons c else ⟨[], true, d :: later⟩
      else (splitEscaped (d :: later)).cons c

/-- A token that was read, without its place: its kind, its characters after the
first one, and what follows. -/
structure Lexeme where
  /-- What the token is. -/
  kind : TokenKind
  /-- The characters of the token after its first one. -/
  tail : List Char
  /-- The characters that follow the token. -/
  rest : List Char
  deriving DecidableEq, Repr

/-- The token of a whole word. -/
def wordKind (word : List Char) : TokenKind :=
  match Keyword.ofWord? word with
  | some keyword => .keyword keyword
  | none => .name word

/-- A token that is one character, or two if the second is the given one. -/
def withSecond (second : Char) (alone paired : TokenKind) : List Char → Lexeme
  | [] => ⟨alone, [], []⟩
  | c :: later => if c = second then ⟨paired, [c], later⟩ else ⟨alone, [], c :: later⟩

/-- Read a word; an `E` alone with a single quote right after it starts an escaped text. -/
def lexWord (c : Char) (later : List Char) : Lexeme :=
  let word := splitWord later
  match word.taken, word.rest with
  | [], '\'' :: quotedText =>
      if c = 'E' || c = 'e' then
        let split := splitEscaped quotedText
        ⟨.escapedString split.body, '\'' :: split.taken '\'', split.rest⟩
      else ⟨wordKind [c], [], later⟩
  | taken, rest => ⟨wordKind (c :: taken), taken, rest⟩

/-- The kind of a token that is always a single character. -/
def symbolKind? (c : Char) : Option TokenKind :=
  if c = '=' then some .equal
  else if c = '(' then some .openParen
  else if c = ')' then some .closeParen
  else if c = ',' then some .comma
  else if c = '*' then some .star
  else if c = '.' then some .dot
  else none

/-- Read a sign of inequality or an exclamation mark. -/
def lexSign (c : Char) (later : List Char) : Lexeme :=
  if c = '>' then withSecond '=' .greater .atLeast later
  else if c = '!' then withSecond '=' .illegal .notEqual later
  else
    match later with
    | '>' :: rest => ⟨.notEqual, ['>'], rest⟩
    | _ => withSecond '=' .less .atMost later

/-- Read a text or a name in quotes. -/
def lexQuoted (quote : Char) (kind : List Char → TokenKind) (later : List Char) : Lexeme :=
  let split := splitQuoted quote later
  ⟨kind split.body, split.taken quote, split.rest⟩

/-- Read a number whose first character is a digit or a minus sign. -/
def lexNumber (c : Char) (later : List Char) : Lexeme :=
  let split := splitNumber false later
  ⟨.number (c :: split.taken), split.taken, split.rest⟩

/-- Read the token that starts with a character which is neither white space
nor the start of a comment. -/
def lexToken (c : Char) (later : List Char) : Lexeme :=
  match symbolKind? c with
  | some kind => ⟨kind, [], later⟩
  | none =>
      if c = '<' || c = '>' || c = '!' then lexSign c later
      else if c = '\'' then lexQuoted c .string later
      else if c = '"' then lexQuoted c .quotedName later
      else if isDigit c || (c = '-' && digitAhead later) then lexNumber c later
      else if startsWord c then lexWord c later
      else ⟨.illegal, [], later⟩

/-- Skipping keeps every character. -/
theorem splitGap_append (inComment : Bool) (text : List Char) :
    (splitGap inComment text).taken ++ (splitGap inComment text).rest = text := by
  fun_induction splitGap inComment text <;> simp_all [Split.cons]

/-- Reading a number keeps every character. -/
theorem splitNumber_append (pointSeen : Bool) (text : List Char) :
    (splitNumber pointSeen text).taken ++ (splitNumber pointSeen text).rest = text := by
  fun_induction splitNumber pointSeen text <;> simp_all [Split.cons]

/-- Reading a quoted text keeps every character. -/
theorem splitQuoted_append (quote : Char) (text : List Char) :
    (splitQuoted quote text).taken quote ++ (splitQuoted quote text).rest = text := by
  fun_induction splitQuoted quote text <;> simp_all

/-- Reading an escaped text keeps every character. -/
theorem splitEscaped_append (text : List Char) :
    (splitEscaped text).taken '\'' ++ (splitEscaped text).rest = text := by
  fun_induction splitEscaped text <;> simp_all

/-- Reading a word keeps every character. -/
theorem lexWord_append (c : Char) (later : List Char) :
    (lexWord c later).tail ++ (lexWord c later).rest = later := by
  have whole : (splitWord later).taken ++ (splitWord later).rest = later :=
    List.takeWhile_append_dropWhile
  simp only [lexWord]
  split
  · rename_i noWord quotedAhead
    rw [noWord, quotedAhead] at whole
    split
    · simpa [splitEscaped_append] using whole
    · simp
  · exact whole

/-- Reading one or two characters keeps every character. -/
theorem withSecond_append (second : Char) (alone paired : TokenKind) (later : List Char) :
    (withSecond second alone paired later).tail ++ (withSecond second alone paired later).rest
      = later := by
  cases later with
  | nil => rfl
  | cons c rest => by_cases same : c = second <;> simp [withSecond, same]

/-- Reading a sign keeps every character. -/
theorem lexSign_append (c : Char) (later : List Char) :
    (lexSign c later).tail ++ (lexSign c later).rest = later := by
  unfold lexSign
  split
  · exact withSecond_append ..
  · split
    · exact withSecond_append ..
    · split
      · rfl
      · exact withSecond_append ..

/-- A token and what follows it are what was read. -/
theorem lexToken_append (c : Char) (later : List Char) :
    (lexToken c later).tail ++ (lexToken c later).rest = later := by
  unfold lexToken
  split
  · rfl
  · split
    · exact lexSign_append ..
    · split
      · exact splitQuoted_append ..
      · split
        · exact splitQuoted_append ..
        · split
          · exact splitNumber_append ..
          · split
            · exact lexWord_append ..
            · rfl

/-- The tokens of a text and what is left after the last of them. -/
structure Scan where
  /-- The tokens in order. -/
  tokens : List Token
  /-- The white space and comments after the last token. -/
  tail : List Char
  deriving DecidableEq, Repr

/-- What is left after a token is shorter than the text before it. -/
theorem lexToken_rest_shorter {text : List Char} {c : Char} {later : List Char}
    (ahead : (splitGap false text).rest = c :: later) :
    (lexToken c later).rest.length < text.length := by
  have gap := congrArg List.length (splitGap_append false text)
  have token := congrArg List.length (lexToken_append c later)
  simp only [List.length_append, ahead, List.length_cons] at gap token
  omega

/-- Scan a text whose first character is at byte `start`. -/
def scanFrom (start : Nat) (text : List Char) : Scan :=
  match ahead : (splitGap false text).rest with
  | [] => ⟨[], text⟩
  | c :: later =>
      have _shorter := lexToken_rest_shorter ahead
      let gap := (splitGap false text).taken
      let lexeme := lexToken c later
      let token : Token := ⟨lexeme.kind, gap, c :: lexeme.tail, start + byteLength gap⟩
      let remaining := scanFrom (token.start + byteLength token.text) lexeme.rest
      ⟨token :: remaining.tokens, remaining.tail⟩
termination_by text.length

/-- Split a text into tokens. -/
def scan (text : List Char) : Scan := scanFrom 0 text

end MetricQuery
