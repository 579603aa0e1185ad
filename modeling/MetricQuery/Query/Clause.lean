import MetricQuery.Token

/-!
# Clauses and their items

A query text is cut into clauses before any of them is understood. A clause
starts at one of the four opening keywords, wherever it stands, and ends before
the next one; tokens before the first opening keyword belong to no clause. So a
clause that makes no sense cannot reach into another one.

Inside a clause, items are separated by a token that stands outside of all
parentheses. A closing parenthesis without an opening one closes nothing.
-/

namespace MetricQuery

/-- An opening keyword and the tokens up to the next one. -/
structure Clause where
  /-- The keyword that opens the clause. -/
  opening : Keyword
  /-- The tokens of the clause after its keyword. -/
  body : List Token
  /-- The token that opens the next clause, if there is one. -/
  ending : Option Token
  deriving DecidableEq, Repr

/-- Whether a token opens a clause. -/
def Token.opensClause (token : Token) : Bool := token.kind.opensClause

/-- The keyword by which a token opens a clause. -/
def Token.opening? (token : Token) : Option Keyword :=
  match token.kind with
  | .keyword word => if word.opensClause then some word else none
  | _ => none

/-- The tokens before the next one that opens a clause. -/
def clauseBody (tokens : List Token) : List Token :=
  tokens.takeWhile fun token => !token.opensClause

/-- The clauses of a sequence of tokens, in order. -/
def clausesOf : List Token → List Clause
  | [] => []
  | token :: later =>
      match token.opening? with
      | some word =>
          ⟨word, clauseBody later, later.find? Token.opensClause⟩ :: clausesOf later
      | none => clausesOf later

/-- The first token after the keyword of a clause, whether it still belongs to
the clause or opens the next one. -/
def Clause.ahead (clause : Clause) : Option Token := clause.body.head?.or clause.ending

/-- The number of open parentheses after a token. -/
def depthAfter (depth : Nat) : TokenKind → Nat
  | .openParen => depth + 1
  | .closeParen => depth - 1
  | _ => depth

/-- The pieces between separators outside of parentheses, at a given depth. The
first piece is given apart, as there is always one. -/
def splitPieces (isSeparator : TokenKind → Bool) :
    Nat → List Token → List Token × List (List Token)
  | _, [] => ([], [])
  | depth, token :: later =>
      if depth = 0 ∧ isSeparator token.kind = true then
        let (piece, pieces) := splitPieces isSeparator 0 later
        ([], piece :: pieces)
      else
        let (piece, pieces) := splitPieces isSeparator (depthAfter depth token.kind) later
        (token :: piece, pieces)

/-- The items between separators outside of parentheses, without empty ones. -/
def splitItems (isSeparator : TokenKind → Bool) (tokens : List Token) : List (List Token) :=
  let (piece, pieces) := splitPieces isSeparator 0 tokens
  (piece :: pieces).filter fun item => !item.isEmpty

/-- The tokens before the parenthesis that closes an open one, and the tokens
after it, at a given depth of further parentheses. -/
def splitClosing : Nat → List Token → Option (List Token × List Token)
  | _, [] => none
  | depth, token :: later =>
      if token.kind = .closeParen ∧ depth = 0 then some ([], later)
      else
        (splitClosing (depthAfter depth token.kind) later).map fun (inside, after) =>
          (token :: inside, after)

end MetricQuery
