import MetricQuery.Token.Scan

/-!
# Laying out a query

A query is laid out by starting a new line before each clause after the select
list, and an indented one before each condition after the first. Only keywords
outside of parentheses count. The white space before such a keyword gives way
to the line break; everything else stays as it is, so strings, quoted names and
comments keep every character.
-/

namespace MetricQuery

/-- Where a walk over the tokens of a query stands. -/
structure LayoutState where
  /-- The number of open parentheses. -/
  depth : Nat := 0
  /-- Whether the last clause keyword started the conditions. -/
  inConditions : Bool := false
  deriving DecidableEq, Repr

/-- The line break before a token, if it has one, and the state after it. -/
def LayoutState.step (state : LayoutState) (kind : TokenKind) :
    Option (List Char) × LayoutState :=
  match kind with
  | .openParen => (none, { state with depth := state.depth + 1 })
  | .closeParen => (none, { state with depth := state.depth - 1 })
  | .keyword .FROM | .keyword .GROUP =>
      if state.depth = 0 then (some ['\n'], { state with inConditions := false })
      else (none, state)
  | .keyword .WHERE =>
      if state.depth = 0 then (some ['\n'], { state with inConditions := true })
      else (none, state)
  | .keyword .AND =>
      if state.depth = 0 ∧ state.inConditions = true then (some ['\n', ' ', ' '], state)
      else (none, state)
  | _ => (none, state)

/-- The text of some tokens with their line breaks in place. -/
def layoutTokens : LayoutState → List Token → List Char
  | _, [] => []
  | state, token :: later =>
      let (lineBreak, next) := state.step token.kind
      let gap :=
        match lineBreak with
        | some start => Text.trimEnd token.gap ++ start
        | none => token.gap
      gap ++ token.text ++ layoutTokens next later

/-- Lay out a query. -/
def layout (text : List Char) : List Char :=
  let scanned := scan text
  layoutTokens {} scanned.tokens ++ scanned.tail

end MetricQuery
