/-!
# Bytes of a text

Positions in a text are counted in bytes of its encoding, where a character
takes one to four of them. A text can be cut at a byte only where a character
starts or the text ends.
-/

namespace MetricQuery.Text

/-- The number of bytes that a text takes when encoded. -/
def byteLength : List Char → Nat
  | [] => 0
  | c :: later => c.utf8Size + byteLength later

/-- The part of a text from a byte on, if a character starts there or the text ends there. -/
def dropBytes : Nat → List Char → Option (List Char)
  | 0, text => some text
  | _ + 1, [] => none
  | count + 1, c :: later =>
      if c.utf8Size ≤ count + 1 then dropBytes (count + 1 - c.utf8Size) later else none

/-- The part of a text before a byte, if a character starts there or the text ends there. -/
def takeBytes : Nat → List Char → Option (List Char)
  | 0, _ => some []
  | _ + 1, [] => none
  | count + 1, c :: later =>
      if c.utf8Size ≤ count + 1 then
        (takeBytes (count + 1 - c.utf8Size) later).map (c :: ·)
      else none

/-- The bytes of two texts one after the other are the bytes of both. -/
theorem byteLength_append (first second : List Char) :
    byteLength (first ++ second) = byteLength first + byteLength second := by
  induction first with
  | nil => simp [byteLength]
  | cons c later hypothesis => simp [byteLength, hypothesis, Nat.add_assoc]

/-- Dropping the bytes of the first of two texts leaves the second. -/
theorem dropBytes_append (first second : List Char) :
    dropBytes (byteLength first) (first ++ second) = some second := by
  induction first with
  | nil => simp [byteLength, dropBytes]
  | cons c later hypothesis =>
      obtain ⟨count, size⟩ : ∃ count, c.utf8Size + byteLength later = count + 1 :=
        ⟨c.utf8Size + byteLength later - 1, by have := c.utf8Size_pos; omega⟩
      have remaining : count + 1 - c.utf8Size = byteLength later := by omega
      rw [byteLength, size, List.cons_append, dropBytes, if_pos (by omega), remaining, hypothesis]

/-- Taking the bytes of the first of two texts gives the first. -/
theorem takeBytes_append (first second : List Char) :
    takeBytes (byteLength first) (first ++ second) = some first := by
  induction first with
  | nil => simp [byteLength, takeBytes]
  | cons c later hypothesis =>
      obtain ⟨count, size⟩ : ∃ count, c.utf8Size + byteLength later = count + 1 :=
        ⟨c.utf8Size + byteLength later - 1, by have := c.utf8Size_pos; omega⟩
      have remaining : count + 1 - c.utf8Size = byteLength later := by omega
      rw [byteLength, size, List.cons_append, takeBytes, if_pos (by omega), remaining, hypothesis]
      rfl

end MetricQuery.Text
