import MetricQuery.Json.Walk
import MetricQuery.SortedMap

/-!
# Reading values

A reader takes one value of a certain shape from the front of a sequence of
words and gives the value and the words after it. It fails at the first word at
which the text can no longer hold such a value, so the fault that is reported
is the first one in the order of the text.

A record is read from an object, whose members may come in any order, or from a
list of its fields in their order. Members that are no field of the record are
passed over, a field may not occur twice, and a field that is missing is filled
in where the record allows it. A choice between names is read from a string, or
from an object that gives the name the value null.
-/

namespace MetricQuery.Json

/-- Take a value from the front of a sequence of words. The number is how many
lists and objects may still be opened, plus one. -/
abbrev Reader (α : Type) := Nat → List Lexeme → Except Fault (α × List Lexeme)

/-- The depth with which a text is read: one more than may be open at once. -/
def depthLimit : Nat := 128

/-- Open one more list or object. -/
def deeper (depth : Nat) : Except Fault Nat :=
  if depth ≤ 1 then .error .tooDeep else .ok (depth - 1)

/-- The fault of words that start with another value than the expected one. -/
def mismatch (expected : String) : List Lexeme → Fault
  | [] => .endInValue
  | .null :: _ => .wrongType .null expected
  | .boolean value :: _ => .wrongType (.boolean value) expected
  | .text value :: _ => .wrongType (.text value) expected
  | .number (.natural value) :: _ => .wrongType (.integer value) expected
  | .number (.negative value) :: _ => .wrongType (.integer (-(value : Int))) expected
  | .number (.decimal value) :: _ => .wrongType (.decimal value) expected
  | .openBracket :: _ => .wrongType .sequence expected
  | .openBrace :: _ => .wrongType .map expected
  | .unreadableText fault :: _ | .unreadableNumber fault :: _ => fault
  | .broken _ whenRead _ :: _ => whenRead
  | .closeBrace :: _ | .closeBracket :: _ | .colon :: _ | .comma :: _ => .expectedValue

/-- Read a string. -/
def readText : Reader String := fun _ words =>
  match words with
  | .text value :: later => .ok (String.ofList value, later)
  | _ => .error (mismatch "a string" words)

/-- Read an integer of 64 bits with a sign. -/
def readInteger : Reader Int := fun _ words =>
  match words with
  | .number (.natural value) :: later =>
      if value ≤ Word.largestSigned then .ok (value, later)
      else .error (.wrongValue (.integer value) "i64")
  | .number (.negative value) :: later => .ok (-(value : Int), later)
  | _ => .error (mismatch "i64" words)

/-- The words from the next element of a list on, or nothing at the end of the
list; `first` tells whether no element was read yet. -/
def nextElement (first : Bool) : List Lexeme → Except Fault (Option (List Lexeme))
  | [] => .error .endInList
  | .closeBracket :: _ => .ok none
  | .comma :: later =>
      if first then .ok (some (.comma :: later))
      else
        match later with
        | [] => .error .endInValue
        | .closeBracket :: _ => .error .trailingComma
        | words => .ok (some words)
  | words => if first then .ok (some words) else .error .expectedListEnd

/-- Close a list after its last element that is asked for. -/
def endList : List Lexeme → Except Fault (List Lexeme)
  | [] => .error .endInList
  | .closeBracket :: later => .ok later
  | .comma :: .closeBracket :: _ => .error .trailingComma
  | _ => .error .trailingCharacters

/-- Read the elements of a list up to its end; `count` bounds their number. -/
def readElements {α : Type} (item : Reader α) (depth : Nat) :
    Nat → Bool → List Lexeme → Except Fault (List α × List Lexeme)
  | 0, _, _ => .error .endInList
  | count + 1, first, words => do
      match ← nextElement first words with
      | none => .ok ([], words)
      | some element =>
          let (value, afterValue) ← item depth element
          let (values, rest) ← readElements item depth count false afterValue
          .ok (value :: values, rest)

/-- Read a list. -/
def readList {α : Type} (item : Reader α) : Reader (List α) := fun depth words =>
  match words with
  | .openBracket :: later => do
      let inner ← deeper depth
      let (values, rest) ← readElements item inner (later.length + 1) true later
      let afterList ← endList rest
      .ok (values, afterList)
  | _ => .error (mismatch "a sequence" words)

/-- A key and the words after it. -/
def takeKeyText : List Lexeme → Except Fault (Option (String × List Lexeme))
  | .text key :: later => .ok (some (String.ofList key, later))
  | .unreadableText fault :: _ => .error fault
  | .broken '"' whenRead _ :: _ => .error whenRead
  | _ => .error .keyNotText

/-- The key of the next member of an object and the words after it, or nothing
at the end of the object; `first` tells whether no member was read yet. -/
def nextKey (first : Bool) : List Lexeme → Except Fault (Option (String × List Lexeme))
  | [] => .error .endInObject
  | .closeBrace :: _ => .ok none
  | .comma :: later =>
      if first then .error .keyNotText
      else
        match later with
        | [] => .error .endInValue
        | .closeBrace :: _ => .error .trailingComma
        | words => takeKeyText words
  | words => if first then takeKeyText words else .error .expectedObjectEnd

/-- The words after the colon that follows a key. -/
def afterColon : List Lexeme → Except Fault (List Lexeme)
  | [] => .error .endInObject
  | .colon :: later => .ok later
  | _ => .error .expectedColon

/-- Read the members of a map up to its end; `count` bounds their number. Of
several members with one key the last counts. -/
def readMembers {α : Type} (value : Reader α) (depth : Nat) :
    Nat → Bool → SortedMap α → List Lexeme → Except Fault (SortedMap α × List Lexeme)
  | 0, _, _, _ => .error .endInObject
  | count + 1, first, map, words => do
      match ← nextKey first words with
      | none => .ok (map, words.tail)
      | some (key, afterKey) =>
          let valueWords ← afterColon afterKey
          let (entry, rest) ← value depth valueWords
          readMembers value depth count false (map.insert key entry) rest

/-- Read a map from strings. -/
def readMap {α : Type} (value : Reader α) : Reader (SortedMap α) := fun depth words =>
  match words with
  | .openBrace :: later => do
      let inner ← deeper depth
      readMembers value inner (later.length + 1) true .empty later
  | _ => .error (mismatch "a map" words)

/-- A choice between names, spelled as a key or as a string. -/
def variantOf {α : Type} (variants : List (String × α)) (name : String) : Except Fault α :=
  match variants.find? fun variant => variant.1 = name with
  | some variant => .ok variant.2
  | none => .error (.unknownVariant name (variants.map Prod.fst))

/-- Read what follows the name of a choice in an object: the value null and the
end of the object. -/
def readNullMember (words : List Lexeme) : Except Fault (List Lexeme) := do
  match ← afterColon words with
  | .null :: .closeBrace :: later => .ok later
  | [.null] => .error .endInObject
  | .null :: _ => .error .expectedValue
  | others => .error (mismatch "unit" others)

/-- Read a choice between names. In an object the name is its first key, and an
object without a key makes no choice. -/
def readVariant {α : Type} (variants : List (String × α)) : Reader α := fun depth words =>
  match words with
  | [] => .error .endInValue
  | .text name :: later => do
      let value ← variantOf variants (String.ofList name)
      .ok (value, later)
  | .unreadableText fault :: _ => .error fault
  | .broken '"' whenRead _ :: _ => .error whenRead
  | .openBrace :: later => do
      let _ ← deeper depth
      match ← nextKey true later with
      | none => .error .expectedValue
      | some (name, afterName) =>
          let value ← variantOf variants name
          let rest ← readNullMember afterName
          .ok (value, rest)
  | _ => .error .expectedValue

/-- Read a value that may be null. -/
def readOptional {α : Type} (value : Reader α) : Reader (Option α) := fun depth words =>
  match words with
  | .null :: later => .ok (none, later)
  | .broken 'n' whenRead _ :: _ => .error whenRead
  | _ => do
      let (content, rest) ← value depth words
      .ok (some content, rest)

/-- A field of a record while the record is read into a draft. -/
structure Slot (δ : Type) where
  /-- The key of the field. -/
  name : String
  /-- Whether the field must be there when the record is read from a list. -/
  required : Bool
  /-- Whether the field was read already. -/
  isSet : δ → Bool
  /-- Read the field into the draft. -/
  read : δ → Reader δ

/-- Read the fields of a record from the elements of a list, in their order. -/
def readPositions {δ : Type} (expected : String) (depth : Nat) :
    List (Slot δ) → Nat → Bool → δ → List Lexeme → Except Fault (δ × List Lexeme)
  | [], _, _, draft, words => .ok (draft, words)
  | slot :: later, index, first, draft, words => do
      match ← nextElement first words with
      | some element =>
          let (filled, rest) ← slot.read draft depth element
          readPositions expected depth later (index + 1) false filled rest
      | none =>
          if slot.required then .error (.wrongLength index expected)
          else readPositions expected depth later (index + 1) first draft words

/-- Read the fields of a record from the members of an object, in any order;
`count` bounds the number of members. -/
def readFields {δ : Type} (slots : List (Slot δ)) (depth : Nat) :
    Nat → Bool → δ → List Lexeme → Except Fault (δ × List Lexeme)
  | 0, _, _, _ => .error .endInObject
  | count + 1, first, draft, words => do
      match ← nextKey first words with
      | none => .ok (draft, words.tail)
      | some (key, afterKey) =>
          match slots.find? fun slot => slot.name = key with
          | some slot =>
              if slot.isSet draft then .error (.duplicateField key)
              else
                let valueWords ← afterColon afterKey
                let (filled, rest) ← slot.read draft depth valueWords
                readFields slots depth count false filled rest
          | none =>
              let valueWords ← afterColon afterKey
              let rest ← skipValue valueWords
              readFields slots depth count false draft rest

/-- The number of elements of a record in messages. -/
def elementCount (count : Nat) : String :=
  String.ofList (Decimal.digitsOf count) ++ (if count = 1 then " element" else " elements")

/-- Read a record. The draft starts out as `blank`, and `finish` turns it into
the record or names the first field that is missing. -/
def readRecord {δ α : Type} (name : String) (slots : List (Slot δ)) (blank : δ)
    (finish : δ → Except Fault α) : Reader α := fun depth words =>
  match words with
  | .openBracket :: later => do
      let inner ← deeper depth
      let expected := name ++ " with " ++ elementCount slots.length
      let (draft, rest) ← readPositions expected inner slots 0 true blank later
      let record ← finish draft
      let afterRecord ← endList rest
      .ok (record, afterRecord)
  | .openBrace :: later => do
      let inner ← deeper depth
      let (draft, rest) ← readFields slots inner (later.length + 1) true blank later
      let record ← finish draft
      .ok (record, rest)
  | _ => .error (mismatch name words)

/-- The content of a field that must be there. -/
def need {α : Type} (name : String) : Option α → Except Fault α
  | some content => .ok content
  | none => .error (.missingField name)

/-- Read a text that holds one value and nothing else. -/
def decode {α : Type} (reader : Reader α) (text : String) : Except Fault α := do
  let (value, rest) ← reader depthLimit (scan text.toList)
  if rest.isEmpty then .ok value else .error .trailingCharacters

end MetricQuery.Json
