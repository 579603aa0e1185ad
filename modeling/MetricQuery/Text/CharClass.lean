/-!
# Classes of characters

A class of characters is given by the ascending list of code points at which
membership changes. The first entry is the first member, the second the first
code point after that run, and so on, so a character belongs to the class
exactly when an odd number of entries is at or below it.

The tables of the standard properties are then plain lists of numbers, and two
classes can be compared by walking their lists, without visiting the code
points in between.
-/

namespace MetricQuery.Text

/-- Membership of a code point, where `inside` tells whether the code points
before the first remaining boundary are members. -/
def within : Bool → List Nat → Nat → Bool
  | inside, [], _ => inside
  | inside, boundary :: later, code =>
      if code < boundary then inside else within (!inside) later code

/-- A class of characters, held as its ascending boundaries. -/
structure CharClass where
  /-- The code points at which membership changes, in ascending order. -/
  boundaries : List Nat

/-- Whether the class holds the character. -/
def CharClass.contains (cls : CharClass) (c : Char) : Bool :=
  within false cls.boundaries c.toNat

end MetricQuery.Text
