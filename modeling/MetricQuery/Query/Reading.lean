import MetricQuery.Journal
import MetricQuery.Query
import MetricQuery.Query.Clause
import MetricQuery.Text.Blank
import MetricQuery.Token.Scan

/-!
# Reading queries

Every text is a query. Each clause is read by itself: a select list, a table, a
list of conditions, or the fields of a grouping. What cannot be understood is
left out and noted, the condition alone in a list of conditions and the whole
clause otherwise. The query of the text is the merge of what its clauses say,
in their order.

A name is a bare word or a text in double quotes, where a doubled quote stands
for one. A name after a qualifier and a dot counts without its qualifier. Any
other sequence of tokens in the place of a name stands for its own text.
-/

namespace MetricQuery

/-- Make one quote of every doubled one. -/
def undouble (quote : Char) : List Char → List Char
  | [] => []
  | [c] => [c]
  | c :: d :: later =>
      if c = quote ∧ d = quote then quote :: undouble quote later
      else c :: undouble quote (d :: later)

/-- The character that a letter after a backslash stands for. -/
def escapedChar (c : Char) : Char :=
  if c = 'n' then '\n'
  else if c = 't' then '\t'
  else if c = 'r' then '\r'
  else if c = '0' then '\x00'
  else if c = 'b' then '\x08'
  else if c = 'f' then '\x0c'
  else c

/-- Undo the backslashes and the doubled quotes of an escaped text. -/
def unescape : List Char → List Char
  | [] => []
  | [c] => if c = '\\' then [] else [c]
  | c :: d :: later =>
      if c = '\\' then escapedChar d :: unescape later
      else if c = '\'' ∧ d = '\'' then '\'' :: unescape later
      else c :: unescape (d :: later)

/-- The name that a token is, if it is one. -/
def Token.name? (token : Token) : Option (List Char) :=
  match token.kind with
  | .name text => some text
  | .quotedName body => some (undouble '"' body)
  | _ => none

/-- The text of a sequence of tokens, from the first one to the last one. -/
def textOf : List Token → List Char
  | [] => []
  | first :: later =>
      Text.trim (first.text ++ later.flatMap fun token => token.gap ++ token.text)

/-- The field that a sequence of tokens refers to. -/
def fieldName (tokens : List Token) : List Char :=
  match tokens with
  | [token] =>
      match token.name? with
      | some name => name
      | none => if token.kind = .star then ['*'] else textOf tokens
  | [qualifier, dot, last] =>
      if qualifier.name?.isSome ∧ dot.kind = .dot then (last.name?).getD (textOf tokens)
      else textOf tokens
  | _ => textOf tokens

/-- A text without the quotes around it, if it starts and ends with the same one. -/
def withoutQuotes (quote : Char) (text : List Char) : Option (List Char) :=
  match text with
  | first :: later =>
      if first = quote ∧ later.getLast? = some quote then some later.dropLast else none
  | [] => none

/-- A text without the single or double quotes around it. -/
def stripQuotes (text : List Char) : List Char :=
  ((withoutQuotes '\'' text).or (withoutQuotes '"' text)).getD text

/-- The value that a sequence of tokens writes. -/
def literalValue (tokens : List Token) : List Char :=
  match tokens with
  | [token] =>
      match token.kind with
      | .string body => undouble '\'' body
      | .escapedString body => unescape body
      | .quotedName body => undouble '"' body
      | .name text | .number text => text
      | _ => stripQuotes (textOf tokens)
  | _ => stripQuotes (textOf tokens)

/-- Why a clause or a condition was left out. -/
inductive ClauseFault where
  /-- A table was expected, and a token or the end of the input was found. -/
  | noTable (found : Option Token)
  /-- A condition has fewer than two tokens. -/
  | incomplete (text : List Char) (first : Option Token)
  /-- A condition does not start with a field. -/
  | noField (found : Token)
  /-- A condition has no known comparison after its field. -/
  | noComparison (found : Token)
  /-- A condition ends after its comparison. -/
  | noValue (comparison : Comparison) (sign : Token)
  /-- A grouping lacks its second keyword, and a token or the end was found. -/
  | noBy (found : Option Token)
  deriving DecidableEq, Repr

/-- A place in messages. -/
def Span.describe (span : Span) : String :=
  " at " ++ toString span.start ++ "-" ++ toString span.stop

/-- The token that was found in the place of something else, in messages. -/
def foundText : Option Token → String
  | some token => ", found " ++ token.kind.describe ++ token.span.describe
  | none => ", but reached end of input"

/-- The wording of a fault. -/
def ClauseFault.message : ClauseFault → String
  | noTable found => "Expected table name" ++ foundText found
  | incomplete text first =>
      "Incomplete condition '" ++ String.ofList text ++ "'" ++
        (match first with
        | some token => token.span.describe
        | none => "")
  | noField found => "Expected field name" ++ foundText (some found)
  | noComparison found => "Unsupported operator " ++ found.kind.describe ++ found.span.describe
  | noValue comparison sign =>
      "Missing value after '" ++ comparison.symbol ++ "'" ++ sign.span.describe
  | noBy found => "Expected BY after GROUP" ++ foundText found

/-- The comparison that a token stands for. -/
def comparisonOf? : TokenKind → Option Comparison
  | .equal => some .equal
  | .greater => some .greater
  | .less => some .less
  | .atLeast => some .atLeast
  | .atMost => some .atMost
  | .keyword .LIKE => some .like
  | _ => none

/-- Read a condition: a field, a comparison and a value. -/
def readCondition (tokens : List Token) : Except ClauseFault Condition :=
  match tokens with
  | field :: sign :: value =>
      match field.name? with
      | none => .error (.noField field)
      | some name =>
          match comparisonOf? sign.kind with
          | none => .error (.noComparison sign)
          | some comparison =>
              if value.isEmpty then .error (.noValue comparison sign)
              else
                .ok ⟨String.ofList name, comparison, String.ofList (literalValue value)⟩
  | _ => .error (.incomplete (textOf tokens) tokens.head?)

/-- An item of a select list. -/
inductive SelectItem where
  | field (name : String)
  | aggregation (aggregation : Aggregation)
  deriving DecidableEq, Repr

/-- The column of the result that a call goes to: the name after `AS`, or else
the field that the call is about. -/
def columnOf (field : List Char) : List Token → List Char
  | asWord :: name :: _ => if asWord.kind = .keyword .AS then fieldName [name] else field
  | _ => field

/-- Read a call of an aggregation function, if the item is one: a bare name and
an argument in parentheses that is not empty. -/
def readCall? (item : List Token) : Option Aggregation :=
  match item with
  | function :: paren :: later =>
      match function.kind, paren.kind with
      | .name word, .openParen =>
          match splitClosing 0 later with
          | some (argument, trailing) =>
              if argument.isEmpty then none
              else
                let field := fieldName argument
                some ⟨.ofName (String.ofList word), String.ofList field,
                  String.ofList (columnOf field trailing)⟩
          | none => none
      | _, _ => none
  | _ => none

/-- Read an item of a select list. -/
def readSelectItem (item : List Token) : SelectItem :=
  match readCall? item with
  | some aggregation => .aggregation aggregation
  | none => .field (String.ofList (fieldName item))

/-- Whether a token separates the items of a list. -/
def isComma (kind : TokenKind) : Bool := kind = .comma

/-- Whether a token separates conditions. -/
def isAnd (kind : TokenKind) : Bool := kind = .keyword .AND

/-- What an item of a select list adds to a query. -/
def SelectItem.query : SelectItem → Query
  | field name => { fields := [name] }
  | aggregation call => { aggregations := [call] }

/-- The merge of several queries in order. -/
def mergeAll (queries : List Query) : Query := queries.foldr Query.merge {}

/-- Read a select list. -/
def readSelect (body : List Token) : Query :=
  mergeAll ((splitItems isComma body).map fun item => (readSelectItem item).query)

/-- Read the table of a query: the name that follows its keyword. -/
def readTable (ahead : Option Token) : Except ClauseFault String :=
  match ahead.bind Token.name? with
  | some name => .ok (String.ofList name)
  | none => .error (.noTable ahead)

/-- Read the conditions of a query, each by itself. -/
def readConditions (body : List Token) : List (Except ClauseFault Condition) :=
  (splitItems isAnd body).map readCondition

/-- Read the fields of a grouping, which follow its second keyword. -/
def readGrouping (clause : Clause) : Except ClauseFault (List String) :=
  match clause.body with
  | token :: later =>
      if token.kind = .keyword .BY then
        .ok ((splitItems isComma later).map fun item => String.ofList (fieldName item))
      else .error (.noBy (some token))
  | [] => .error (.noBy clause.ending)

/-- The conditions that were understood. -/
def understood {ε α : Type} : List (Except ε α) → List α
  | [] => []
  | .ok value :: later => value :: understood later
  | .error _ :: later => understood later

/-- The faults of what was not understood. -/
def faults {ε α : Type} : List (Except ε α) → List ε
  | [] => []
  | .ok _ :: later => faults later
  | .error fault :: later => fault :: faults later

/-- What a clause says. -/
def Clause.query (clause : Clause) : Query :=
  match clause.opening with
  | .SELECT => readSelect clause.body
  | .FROM =>
      match readTable clause.ahead with
      | .ok table => { table := table }
      | .error _ => {}
  | .WHERE => { conditions := understood (readConditions clause.body) }
  | .GROUP =>
      match readGrouping clause with
      | .ok grouping => { grouping := grouping }
      | .error _ => {}
  | _ => {}

/-- The event of a clause that was left out. -/
def clauseDropped (clause : String) (fault : ClauseFault) : Event where
  level := .debug
  message := "dropping unparseable clause"
  details := [("clause", clause), ("error", fault.message)]

/-- The event of a condition that was left out. -/
def conditionDropped (fault : ClauseFault) : Event where
  level := .debug
  message := "dropping WHERE condition"
  details := [("error", fault.message)]

/-- What was left out of a clause. -/
def Clause.journal (clause : Clause) : List Event :=
  match clause.opening with
  | .FROM =>
      match readTable clause.ahead with
      | .ok _ => []
      | .error fault => [clauseDropped "FROM" fault]
  | .WHERE => (faults (readConditions clause.body)).map conditionDropped
  | .GROUP =>
      match readGrouping clause with
      | .ok _ => []
      | .error fault => [clauseDropped "GROUP BY" fault]
  | _ => []

/-- The query that a sequence of tokens writes. -/
def Query.ofTokens (tokens : List Token) : Query :=
  mergeAll ((clausesOf tokens).map Clause.query)

/-- The query that a text writes. -/
def Query.ofText (text : String) : Query := Query.ofTokens (scan text.toList).tokens

/-- What was left out of a text when it was read as a query. -/
def Query.journalOfText (text : String) : List Event :=
  (clausesOf (scan text.toList).tokens).flatMap Clause.journal

end MetricQuery
