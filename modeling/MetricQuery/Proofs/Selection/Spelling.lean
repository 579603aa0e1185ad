import MetricQuery.Proofs.Query.Sentence
import MetricQuery.Proofs.Selection.Literal
import MetricQuery.Proofs.Text.Ascii
import MetricQuery.Proofs.Token.Spelling

/-!
# Names and functions in statements

A name is written in double quotes with its quotes doubled, and every name is
read back, whatever its characters are. The name of a function is written
without quotes and in capitals, so not every function is read back: its name has
to be a word that is no keyword, and it must have no capitals, which would come
back small. A name that a known function has is read as this function.
-/

namespace MetricQuery

open Text (isBlank startsWord continuesWord toUpper_cases map_toLower_toUpper)

namespace Statement

/-- The quotes of a name are doubled one by one. -/
theorem doubled_eq_double (name : List Char) : doubled name = double '"' name := by
  induction name with
  | nil => rfl
  | cons c name inductionHypothesis =>
    by_cases quote : c = '"'
    · simp [doubled, quote, double_quote, inductionHypothesis]
    · rw [doubled, if_neg quote, double_cons quote, inductionHypothesis]

/-- A name as a statement spells it. -/
def nameSpelling (name : String) : NameSpelling := .quoted (doubled name.toList)

/-- The name that is spelled is the name. -/
@[simp] theorem text_nameSpelling (name : String) : (nameSpelling name).text = name.toList := by
  rw [nameSpelling, doubled_eq_double]
  exact undouble_double '"' name.toList

/-- A name is read back. -/
theorem isWritable_nameSpelling (name : String) : (nameSpelling name).kind.IsWritable := by
  rw [nameSpelling, doubled_eq_double]
  exact readsAs_doubleQuoted name.toList (by simp)

/-- A value as a statement spells it. -/
def valueSpelling (value : String) : ValueSpelling :=
  if '\\' ∈ escaped value.toList then .escaped (escaped value.toList)
  else .string (escaped value.toList)

/-- The token of a value is that of its literal. -/
theorem kind_valueSpelling (value : String) :
    (valueSpelling value).kind = literalKind value.toList := by
  by_cases marked : '\\' ∈ escaped value.toList
  · simp [valueSpelling, literalKind, marked, ValueSpelling.kind]
  · simp [valueSpelling, literalKind, marked, ValueSpelling.kind]

/-- The text of the token is the literal. -/
theorem written_valueSpelling (value : String) :
    (valueSpelling value).kind.written = literal value := by
  rw [kind_valueSpelling]
  by_cases marked : '\\' ∈ escaped value.toList
  · simp [literal, literalKind, marked, TokenKind.written]
  · simp [literal, literalKind, marked, TokenKind.written]

/-- A value is read back as a token. -/
theorem isWritable_valueSpelling (value : String) : (valueSpelling value).kind.IsWritable := by
  have reads := readsAs_literal value (by simp : [' '].head? ≠ some '\'')
  rw [TokenKind.IsWritable, written_valueSpelling, kind_valueSpelling]
  exact reads

/-- The value that is spelled is the value, if it has no substitute character. -/
theorem text_valueSpelling {value : String} (plain : '\x1a' ∉ value.toList) :
    (valueSpelling value).text = value.toList := by
  have token : (literalToken value).kind = (valueSpelling value).kind :=
    (kind_valueSpelling value).symm
  rw [← ValueSpelling.literalValue_of_kind token, literalValue_literalKind rfl,
    map_readBack_eq_iff.mpr plain]

end Statement

/-- What holds of a character and of the twenty-six capitals holds of the
character as a capital. -/
theorem toUpper_induction (Property : Char → Prop) {c : Char} (here : Property c)
    (capitals : ∀ code ∈ List.range' 97 26, Property (Char.ofNat code).toUpper) :
    Property c.toUpper := by
  rcases toUpper_cases c with small | same
  · have capital := capitals c.toNat small
    rwa [Char.ofNat_toNat] at capital
  · rwa [same]

/-- Whether a word can name a function: its characters are those of a word, none
is an ASCII capital, and it is no keyword. -/
structure IsFunctionWord (word : List Char) : Prop where
  /-- The characters are those of a word. -/
  shape : ∃ c tail, word = c :: tail ∧ startsWord c = true ∧ ∀ d ∈ tail, continuesWord d = true
  /-- No character is an ASCII capital. -/
  small : ∀ c ∈ word, ¬ ('A' ≤ c ∧ c ≤ 'Z')
  /-- The word is no keyword. -/
  noKeyword : ∀ keyword : Keyword, word ≠ keyword.word

/-- The test whether a word can name a function. -/
def isFunctionWord : List Char → Bool
  | [] => false
  | c :: tail =>
      startsWord c && tail.all continuesWord &&
        (c :: tail).all (fun d => !(decide ('A' ≤ d) && decide (d ≤ 'Z'))) &&
        Keyword.all.all fun keyword => keyword.word != c :: tail

/-- The test finds exactly the words that can name a function. -/
theorem isFunctionWord_iff {word : List Char} :
    isFunctionWord word = true ↔ IsFunctionWord word := by
  cases word with
  | nil =>
    constructor
    · exact nofun
    · rintro ⟨⟨_, _, same, _⟩, _, _⟩
      exact nomatch same
  | cons c tail =>
    simp only [isFunctionWord, Bool.and_eq_true, List.all_eq_true, Bool.not_eq_true',
      Bool.and_eq_false_imp, decide_eq_true_eq, decide_eq_false_iff_not, bne_iff_ne]
    constructor
    · rintro ⟨⟨⟨starts, continues⟩, small⟩, noKeyword⟩
      refine ⟨⟨c, tail, rfl, starts, continues⟩, ?_, ?_⟩
      · rintro d member ⟨lower, upper⟩
        exact small d member lower upper
      · intro keyword same
        have listed : keyword ∈ Keyword.all := by cases keyword <;> decide
        exact noKeyword keyword listed same.symm
    · rintro ⟨⟨first, later, same, starts, continues⟩, small, noKeyword⟩
      obtain ⟨rfl, rfl⟩ := List.cons.inj same
      refine ⟨⟨⟨starts, continues⟩, ?_⟩, fun keyword _ same => noKeyword keyword same.symm⟩
      intro d member lower upper
      exact small d member ⟨lower, upper⟩

instance : DecidablePred IsFunctionWord := fun _ => decidable_of_iff _ isFunctionWord_iff

namespace IsFunctionWord

variable {word : List Char}

/-- Such a word stays as it is when it is made small. -/
theorem map_toLower (named : IsFunctionWord word) : word.map Char.toLower = word := by
  have alone : ∀ c ∈ word, c.toLower = id c := fun c member => dif_neg (named.small c member)
  rw [List.map_congr_left alone, List.map_id]

/-- In capitals it is a name and no keyword. -/
theorem wordKind_capitals (named : IsFunctionWord word) :
    wordKind (word.map Char.toUpper) = .name (word.map Char.toUpper) := by
  have none : Keyword.ofWord? (word.map Char.toUpper) = none := by
    rw [Keyword.ofWord?, List.find?_eq_none]
    intro keyword _
    rw [map_toLower_toUpper, named.map_toLower, decide_eq_true_eq]
    exact Ne.symm (named.noKeyword keyword)
  rw [wordKind, none]

/-- In capitals it is read back. -/
theorem isWritable_capitals (named : IsFunctionWord word) :
    (TokenKind.name (word.map Char.toUpper)).IsWritable := by
  obtain ⟨c, tail, rfl, starts, continues⟩ := named.shape
  have capitalStarts : startsWord c.toUpper = true :=
    toUpper_induction (fun c => startsWord c = true) starts (by decide +kernel)
  have capitalContinues : ∀ d ∈ tail.map Char.toUpper, continuesWord d = true := by
    intro d member
    obtain ⟨e, listed, rfl⟩ := List.mem_map.mp member
    exact toUpper_induction (fun c => continuesWord c = true) (continues e listed)
      (by decide +kernel)
  have reads := readsAs_word capitalStarts capitalContinues
  rw [← List.map_cons, named.wordKind_capitals] at reads
  exact reads

end IsFunctionWord

namespace AggregateFunction

/-- Whether a function is read back from its name: it is a known one, or it has
another word for a name. -/
def IsReadable : AggregateFunction → Prop
  | other name => IsFunctionWord name.toList ∧ name ∉ ["sum", "count", "avg", "min", "max"]
  | _ => True

instance : DecidablePred IsReadable
  | other name =>
      inferInstanceAs (Decidable (IsFunctionWord name.toList ∧
        name ∉ ["sum", "count", "avg", "min", "max"]))
  | sum | count | average | minimum | maximum => inferInstanceAs (Decidable True)

/-- The name of a function that is read back is a word. -/
theorem IsReadable.word {function : AggregateFunction} (readable : function.IsReadable) :
    IsFunctionWord function.name.toList := by
  cases function with
  | other name => exact readable.1
  | _ => decide

/-- In capitals the name stands for the function. -/
theorem IsReadable.ofName_shown {function : AggregateFunction} (readable : function.IsReadable) :
    ofName function.shown = function := by
  have small : Text.smallAscii function.shown = function.name := by
    rw [shown, Text.smallAscii, Text.capitalAscii, String.toList_ofList, map_toLower_toUpper,
      readable.word.map_toLower, String.ofList_toList]
  rw [ofName, small]
  cases function with
  | other name =>
    obtain ⟨sum, count, average, minimum, maximum⟩ :
        name ≠ "sum" ∧ name ≠ "count" ∧ name ≠ "avg" ∧ name ≠ "min" ∧ name ≠ "max" := by
      simpa using readable.2
    simp [AggregateFunction.name, sum, count, average, minimum, maximum]
  | _ => rfl

/-- The name of a function in a statement is read back. -/
theorem IsReadable.isWritable {function : AggregateFunction} (readable : function.IsReadable) :
    (TokenKind.name (Statement.functionName function)).IsWritable := by
  have capitals : Statement.functionName function = function.name.toList.map Char.toUpper := by
    rw [Statement.functionName, shown, Text.capitalAscii, String.toList_ofList]
  rw [capitals]
  exact readable.word.isWritable_capitals

end AggregateFunction

end MetricQuery
