import MetricQuery.Text.CharClass

/-!
# White space

White space is the standard `White_Space` property: the blanks and line breaks
of ASCII, the no-break space, and the spaces and separators above it. A
zero-width space is not white space, and neither is a byte order mark.

Trimming removes white space from the ends of a text and nothing from its
middle.
-/

namespace MetricQuery.Text

/-- The characters that count as white space. -/
def whiteSpace : CharClass where
  boundaries := [
    9, 14, 32, 33, 133, 134, 160, 161, 5760, 5761, 8192, 8203, 8232, 8234, 8239, 8240, 8287, 8288,
    12288, 12289]

/-- Whether a character is white space. -/
def isBlank (c : Char) : Bool := whiteSpace.contains c

/-- Drop the white space a text starts with. -/
def trimStart (text : List Char) : List Char := text.dropWhile isBlank

/-- Drop the white space a text ends with. -/
def trimEnd : List Char → List Char
  | [] => []
  | c :: later =>
      match trimEnd later with
      | [] => if isBlank c then [] else [c]
      | kept => c :: kept

/-- Drop the white space at both ends of a text. -/
def trim (text : List Char) : List Char := trimEnd (trimStart text)

/-- Drop the white space at both ends of a string. -/
def trimmed (text : String) : String := String.ofList (trim text.toList)

/-- A text is blank when nothing but white space is in it. -/
def isBlankText (text : String) : Bool := text.toList.all isBlank

/-- Every blank of ASCII and the line separators above it are white space. -/
example :
    [' ', '\t', '\n', '\r', Char.ofNat 0xb, Char.ofNat 0xc, Char.ofNat 0x85, Char.ofNat 0xa0,
      Char.ofNat 0x2028, Char.ofNat 0x3000].all isBlank = true := by
  decide

/-- Marks of no width are not white space. -/
example :
    [Char.ofNat 0x200b, Char.ofNat 0xfeff, Char.ofNat 0x180e, Char.ofNat 0x1c].any isBlank = false := by
  decide

end MetricQuery.Text
