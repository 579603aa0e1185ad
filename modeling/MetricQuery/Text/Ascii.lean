/-!
# ASCII letter case

Keywords, function names and field names typed as arguments are compared
without regard to the case of ASCII letters. Letters beyond ASCII keep their
case here, so two names that differ in one of those are different names.
-/

namespace MetricQuery.Text

/-- A string with its ASCII capitals made small. -/
def smallAscii (text : String) : String := String.ofList (text.toList.map Char.toLower)

/-- A string with its small ASCII letters made capitals. -/
def capitalAscii (text : String) : String := String.ofList (text.toList.map Char.toUpper)

/-- Whether two strings differ at most in the case of ASCII letters. -/
def sameName (left right : String) : Bool :=
  left.toList.map Char.toLower = right.toList.map Char.toLower

end MetricQuery.Text
