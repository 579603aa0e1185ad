/-!
# Journals

What a step of the program notices on its way is a list of events. An event has
a level, a message, and named details, each shown as text. Journals are
computed beside the results they belong to and never change them.
-/

namespace MetricQuery

/-- How much an event matters. -/
inductive Level where
  | debug
  | info
  | warn
  deriving DecidableEq, Repr

/-- The name of a level. -/
def Level.name : Level → String
  | debug => "DEBUG"
  | info => "INFO"
  | warn => "WARN"

/-- Something that was noticed. -/
structure Event where
  /-- How much it matters. -/
  level : Level
  /-- What was noticed. -/
  message : String
  /-- The details, by name. -/
  details : List (String × String) := []
  deriving DecidableEq, Repr

end MetricQuery
