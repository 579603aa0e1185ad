import MetricQuery.Json.Lexeme

/-!
# Walking over a value

A value is sometimes passed over without being kept: a member of an object that
nothing asks for, or a list or an object in the place of a scalar. Walking over
it needs no more than a stack of the lists and objects that are open and the
place inside the innermost one.

There are two ways to pass over a value. Skipping asks only that the brackets,
commas and colons fit. Reading asks in addition that every string and number
has a value and that nesting stays within a limit, and it names some faults
more closely.
-/

namespace MetricQuery.Json

/-- A list or an object that is open. -/
inductive Frame where
  | list
  | object
  deriving DecidableEq, Repr

/-- How a value is passed over. -/
inductive Mode where
  | reading
  | skipping
  deriving DecidableEq, Repr

/-- What may come next. -/
inductive Place where
  /-- A value must follow. -/
  | value
  /-- A list was just opened. -/
  | listStart
  /-- An element of a list is complete. -/
  | listNext
  /-- A comma in a list is behind. -/
  | listComma
  /-- An object was just opened. -/
  | objectStart
  /-- A member of an object is complete. -/
  | objectNext
  /-- A comma in an object is behind. -/
  | objectComma
  /-- The key of a member is complete. -/
  | colon
  deriving DecidableEq, Repr

/-- What a word leads to. -/
inductive Next where
  /-- The value is complete. -/
  | done
  /-- More must follow. -/
  | go (stack : List Frame) (place : Place)
  deriving DecidableEq, Repr

/-- The place after a complete value. -/
def complete : List Frame → Next
  | [] => .done
  | .list :: outer => .go (.list :: outer) .listNext
  | .object :: outer => .go (.object :: outer) .objectNext

/-- The fault of a broken word. -/
def Mode.fault : Mode → (whenRead whenSkipped : Fault) → Fault
  | reading, whenRead, _ => whenRead
  | skipping, _, whenSkipped => whenSkipped

/-- Open a list or an object. -/
def openFrame (mode : Mode) (depth : Nat) (stack : List Frame) (frame : Frame) (place : Place) :
    Except Fault Next :=
  if mode = .reading ∧ depth ≤ stack.length + 1 then .error .tooDeep
  else .ok (.go (frame :: stack) place)

/-- Take a word where a value must follow. -/
def takeValue (mode : Mode) (depth : Nat) (stack : List Frame) : Lexeme → Except Fault Next
  | .null | .boolean _ | .text _ | .number _ => .ok (complete stack)
  | .unreadableText fault | .unreadableNumber fault =>
      match mode with
      | .reading => .error fault
      | .skipping => .ok (complete stack)
  | .openBracket => openFrame mode depth stack .list .listStart
  | .openBrace => openFrame mode depth stack .object .objectStart
  | .broken _ whenRead whenSkipped => .error (mode.fault whenRead whenSkipped)
  | .closeBrace | .closeBracket | .colon | .comma => .error .expectedValue

/-- Take a word where a key must follow. -/
def takeKey (mode : Mode) (stack : List Frame) : Lexeme → Except Fault Next
  | .text _ => .ok (.go stack .colon)
  | .unreadableText fault =>
      match mode with
      | .reading => .error fault
      | .skipping => .ok (.go stack .colon)
  | .broken '"' whenRead whenSkipped => .error (mode.fault whenRead whenSkipped)
  | _ => .error .keyNotText

/-- Take a word at a place. -/
def takeWord (mode : Mode) (depth : Nat) (stack : List Frame) (place : Place) (word : Lexeme) :
    Except Fault Next :=
  match place with
  | .value => takeValue mode depth stack word
  | .listStart =>
      if word = .closeBracket then .ok (complete stack.tail) else takeValue mode depth stack word
  | .listNext =>
      if word = .closeBracket then .ok (complete stack.tail)
      else if word = .comma then .ok (.go stack .listComma)
      else .error .expectedListEnd
  | .listComma =>
      if word = .closeBracket ∧ mode = .reading then .error .trailingComma
      else takeValue mode depth stack word
  | .objectStart =>
      if word = .closeBrace then .ok (complete stack.tail) else takeKey mode stack word
  | .objectNext =>
      if word = .closeBrace then .ok (complete stack.tail)
      else if word = .comma then .ok (.go stack .objectComma)
      else .error .expectedObjectEnd
  | .objectComma =>
      if word = .closeBrace ∧ mode = .reading then .error .trailingComma
      else takeKey mode stack word
  | .colon => if word = .colon then .ok (.go stack .value) else .error .expectedColon

/-- The fault of a text that ends at a place. -/
def endFault (mode : Mode) : Place → Fault
  | .value | .listComma => .endInValue
  | .listStart | .listNext => .endInList
  | .objectStart | .objectNext | .colon => .endInObject
  | .objectComma => mode.fault .endInValue .endInObject

/-- Walk to the end of the value that is under way, and give what follows it. -/
def walk (mode : Mode) (depth : Nat) : List Frame → Place → List Lexeme →
    Except Fault (List Lexeme)
  | _, place, [] => .error (endFault mode place)
  | stack, place, word :: later =>
      match takeWord mode depth stack place word with
      | .error fault => .error fault
      | .ok .done => .ok later
      | .ok (.go inner next) => walk mode depth inner next later

/-- Pass over a value that nothing asks for. -/
def skipValue (words : List Lexeme) : Except Fault (List Lexeme) :=
  walk .skipping 0 [] .value words

/-- Pass over a value of any shape, nested no deeper than the given depth. -/
def readAny (depth : Nat) (words : List Lexeme) : Except Fault (List Lexeme) :=
  walk .reading depth [] .value words

end MetricQuery.Json
