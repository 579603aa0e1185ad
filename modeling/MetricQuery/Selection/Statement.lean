import MetricQuery.Selection
import MetricQuery.Token.Layout
import MetricQuery.Text.Ascii

/-!
# The statement of a selection

A selection is written as a select statement. It selects the identifying field,
the dimensions and one aggregation for each metric, which goes to the metric's
own field. The filters are joined by `AND`, and the dimensions are repeated in
the grouping.

Names stand in double quotes, where a quote inside is doubled. Values stand in
single quotes; a value with a character that needs an escape starts with an `E`
and writes that character after a backslash. The name of a function that is not
known stands as it is, in capitals.

A selection without metrics and dimensions has no statement. A comment stands
in its place, and a text that is blank or starts with a comment is never run.
-/

namespace MetricQuery

/-- The comment in the place of a statement. -/
def noStatement : String := "-- Select metrics or dimensions to generate a query"

/-- Whether a text starts with the sign of a comment. -/
def startsComment : List Char → Bool
  | '-' :: '-' :: _ => true
  | _ => false

/-- Whether a text stands for no statement: it is blank or starts with a comment. -/
def isSentinel (text : String) : Bool :=
  match Text.trimStart text.toList with
  | [] => true
  | visible => startsComment visible

namespace Statement

/-- Write every double quote twice. -/
def doubled : List Char → List Char
  | [] => []
  | c :: later => if c = '"' then '"' :: '"' :: doubled later else c :: doubled later

/-- A name in double quotes. -/
def quotedName (name : String) : List Char := '"' :: doubled name.toList ++ ['"']

/-- One character of a value, after a backslash where it needs one. -/
def escapeChar (c : Char) : List Char :=
  if c = '\\' || c = '"' || c = '\'' then ['\\', c]
  else if c = '\x00' then ['\\', '0']
  else if c = '\x08' then ['\\', 'b']
  else if c = '\t' then ['\\', 't']
  else if c = '\x1a' then ['\\', 'z']
  else if c = '\n' then ['\\', 'n']
  else if c = '\r' then ['\\', 'r']
  else [c]

/-- The characters of a value with their escapes. -/
def escaped (value : List Char) : List Char := value.flatMap escapeChar

/-- A value in single quotes. -/
def literal (value : String) : List Char :=
  let body := escaped value.toList
  if body.contains '\\' then 'E' :: '\'' :: body ++ ['\''] else '\'' :: body ++ ['\'']

/-- The name of a function in a statement. -/
def functionName (function : AggregateFunction) : List Char := function.shown.toList

/-- Texts joined by another one. -/
def joined (separator : List Char) : List (List Char) → List Char
  | [] => []
  | [only] => only
  | first :: later => first ++ separator ++ joined separator later

/-- The aggregation of a metric. -/
def metricItem (function : AggregateFunction) (metric : Metric) : List Char :=
  functionName function ++ ['('] ++ quotedName metric.value ++ [')'] ++ " AS ".toList ++
    quotedName metric.value

/-- The items of the select list. -/
def selectItems (selection : Selection) : List (List Char) :=
  quotedName "id" :: selection.dimensions.map (fun dimension => quotedName dimension.value) ++
    selection.metrics.map (metricItem selection.function)

/-- A filter as a condition. -/
def filterItem (filter : Condition) : List Char :=
  quotedName filter.field ++ [' '] ++ filter.comparison.symbol.toList ++ [' '] ++
    literal filter.value

/-- A list after its keywords; a list without items is left out. -/
def listPart (keywords separator : List Char) (items : List (List Char)) : List Char :=
  if items.isEmpty then [] else keywords ++ joined separator items

/-- The statement on one line. -/
def oneLine (selection : Selection) : List Char :=
  listPart "SELECT ".toList ", ".toList (selectItems selection) ++
    " FROM ".toList ++ quotedName selection.table ++
    listPart " WHERE ".toList " AND ".toList (selection.filters.map filterItem) ++
    listPart " GROUP BY ".toList ", ".toList
      (selection.dimensions.map fun dimension => quotedName dimension.value)

end Statement

/-- The statement of a selection, or the comment in its place. -/
def Selection.statement (selection : Selection) : String :=
  if selection.isBare then noStatement
  else String.ofList (layout (Statement.oneLine selection))

end MetricQuery
