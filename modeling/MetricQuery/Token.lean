import MetricQuery.Text.Bytes
import MetricQuery.Text.Quoted

/-!
# Tokens

The query language is made of keywords, names, literals, punctuation and
comparison signs. A token keeps the text it was read from and the text that was
skipped before it, so that the tokens of an input, with what is left at its
end, give back the whole input.

Positions are counted in bytes of the encoded text. A span with its two ends on
character boundaries selects a piece of a text, and any other span selects
nothing.
-/

namespace MetricQuery

/-- The words with a meaning of their own. -/
inductive Keyword where
  | SELECT
  | FROM
  | WHERE
  | GROUP
  | BY
  | AS
  | AND
  | LIKE
  deriving DecidableEq, Repr

/-- A keyword in small letters; it is recognized in any case of ASCII letters. -/
def Keyword.word : Keyword → List Char
  | SELECT => ['s', 'e', 'l', 'e', 'c', 't']
  | FROM => ['f', 'r', 'o', 'm']
  | WHERE => ['w', 'h', 'e', 'r', 'e']
  | GROUP => ['g', 'r', 'o', 'u', 'p']
  | BY => ['b', 'y']
  | AS => ['a', 's']
  | AND => ['a', 'n', 'd']
  | LIKE => ['l', 'i', 'k', 'e']

/-- All keywords. -/
def Keyword.all : List Keyword := [SELECT, FROM, WHERE, GROUP, BY, AS, AND, LIKE]

/-- The keyword that a word spells, in any case of ASCII letters. -/
def Keyword.ofWord? (word : List Char) : Option Keyword :=
  Keyword.all.find? fun keyword => keyword.word = word.map Char.toLower

/-- The keywords that open a clause of a query. -/
def Keyword.opensClause : Keyword → Bool
  | SELECT | FROM | WHERE | GROUP => true
  | BY | AS | AND | LIKE => false

/-- What a token is. Quoted tokens carry the text between their quotes as it was
written, with quotes still doubled and escapes still in place. -/
inductive TokenKind where
  | keyword (word : Keyword)
  /-- A bare name. -/
  | name (text : List Char)
  /-- A name in double quotes. -/
  | quotedName (body : List Char)
  /-- A text in single quotes. -/
  | string (body : List Char)
  /-- A text in single quotes after an `E`, with backslash escapes. -/
  | escapedString (body : List Char)
  /-- A number as it was written. -/
  | number (text : List Char)
  | openParen
  | closeParen
  | comma
  | star
  | dot
  | equal
  | notEqual
  | greater
  | less
  | atLeast
  | atMost
  /-- A character that starts no token. -/
  | illegal
  deriving DecidableEq, Repr

namespace TokenKind

/-- Whether the token opens a clause. -/
def opensClause : TokenKind → Bool
  | keyword word => word.opensClause
  | _ => false

/-- The name of a token's kind in messages. -/
def label : TokenKind → String
  | keyword .SELECT => "Select"
  | keyword .FROM => "From"
  | keyword .WHERE => "Where"
  | keyword .GROUP => "Group"
  | keyword .BY => "By"
  | keyword .AS => "As"
  | keyword .AND => "And"
  | keyword .LIKE => "Like"
  | name _ => "Identifier"
  | quotedName _ => "QuotedIdentifier"
  | string _ => "String"
  | escapedString _ => "EscapedString"
  | number _ => "Number"
  | openParen => "LParen"
  | closeParen => "RParen"
  | comma => "Comma"
  | star => "Star"
  | dot => "Dot"
  | equal => "Eq"
  | notEqual => "NotEq"
  | greater => "Gt"
  | less => "Lt"
  | atLeast => "Gte"
  | atMost => "Lte"
  | illegal => "Illegal"

/-- The text that a token carries, for the kinds that carry one. -/
def body? : TokenKind → Option (List Char)
  | name text | quotedName text | string text | escapedString text | number text => some text
  | _ => none

/-- A token in messages: the name of its kind, with the text it carries in quotes. -/
def describe (kind : TokenKind) : String :=
  match kind.body? with
  | some body => kind.label ++ "(" ++ Text.quoted body ++ ")"
  | none => kind.label

end TokenKind

/-- A range of bytes in a text. -/
structure Span where
  /-- The first byte of the range. -/
  start : Nat
  /-- The first byte after the range. -/
  stop : Nat
  deriving DecidableEq, Repr

/-- The text in a span, and the empty text where the span cuts a character, runs
backwards or leaves the text. -/
def Span.text (span : Span) (source : List Char) : List Char :=
  if span.start ≤ span.stop then
    ((Text.dropBytes span.start source).bind (Text.takeBytes (span.stop - span.start))).getD []
  else []

/-- A token of a text. -/
structure Token where
  /-- What the token is. -/
  kind : TokenKind
  /-- The white space and comments skipped before it. -/
  gap : List Char
  /-- The text it was read from. -/
  text : List Char
  /-- The byte at which its text starts. -/
  start : Nat
  deriving DecidableEq, Repr

/-- The bytes that a token was read from. -/
def Token.span (token : Token) : Span := ⟨token.start, token.start + Text.byteLength token.text⟩

end MetricQuery
