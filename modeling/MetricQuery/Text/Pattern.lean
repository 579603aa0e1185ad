/-!
# Patterns with a wildcard

A pattern is cut at its percent signs into pieces. With at least one sign the
pieces must occur in the text in their order without overlap, the first one at
its start and the last one at its end, and each sign stands for whatever lies
between. The pieces in the middle are found from the left, each at its first
place, which leaves as much text as possible to the others. A pattern without a
percent sign matches wherever it occurs.
-/

namespace MetricQuery.Text

/-- The pieces of a text between the occurrences of a character: the first one,
and those after each occurrence. -/
def piecesAt (mark : Char) : List Char → List Char × List (List Char)
  | [] => ([], [])
  | c :: later =>
      let (piece, pieces) := piecesAt mark later
      if c = mark then ([], piece :: pieces) else (c :: piece, pieces)

/-- What follows a text at the start of another one, if it stands there. -/
def afterStart : List Char → List Char → Option (List Char)
  | [], text => some text
  | _ :: _, [] => none
  | c :: piece, d :: text => if c = d then afterStart piece text else none

/-- What follows the first occurrence of a piece in a text, if it occurs. -/
def afterFirst (piece : List Char) : List Char → Option (List Char)
  | [] => afterStart piece []
  | c :: text =>
      match afterStart piece (c :: text) with
      | some rest => some rest
      | none => afterFirst piece text

/-- What follows the given pieces in a text, each found at its first place. -/
def afterPieces : List (List Char) → List Char → Option (List Char)
  | [], text => some text
  | piece :: later, text => (afterFirst piece text).bind (afterPieces later)

/-- Whether a text ends with another one. -/
def endsWith (ending text : List Char) : Bool :=
  (afterStart ending.reverse text.reverse).isSome

/-- Whether a text matches a pattern, with regard to letter case. -/
def matchesPattern (pattern text : List Char) : Bool :=
  match piecesAt '%' pattern with
  | (only, []) => (afterFirst only text).isSome
  | (first, more) =>
      match afterStart first text with
      | none => false
      | some rest =>
          match afterPieces more.dropLast rest with
          | none => false
          | some remaining => endsWith (more.getLastD []) remaining

/-- A text that starts with a piece is the piece and what follows it. -/
theorem afterStart_eq_some_iff {piece text rest : List Char} :
    afterStart piece text = some rest ↔ text = piece ++ rest := by
  induction piece generalizing text with
  | nil => simp [afterStart, eq_comm]
  | cons c piece hypothesis =>
      cases text with
      | nil => simp [afterStart]
      | cons d text =>
          by_cases same : c = d
          · simp [afterStart, same, hypothesis]
          · simp [afterStart, same, Ne.symm same]

end MetricQuery.Text
