import MetricQuery.Proofs.Query.Items
import MetricQuery.Proofs.Query.Places

/-!
# Sentences of the query language

A sentence is a query text as its grammar has it: a select list, a table, then
conditions and a grouping if there are any. Names are spelled bare or in double
quotes, fields also with a qualifier or as a star, and values in any of the
literal forms. A sentence has the kinds of its tokens and the query that it
writes.

The main statement is that every sequence of tokens of these kinds is read as
this query, whatever gaps stand between the tokens.
-/

namespace MetricQuery

/-- Whether a token neither opens a clause nor separates items nor is a parenthesis. -/
structure IsFlat (isSeparator : TokenKind → Bool) (kind : TokenKind) : Prop where
  /-- The token opens no clause. -/
  inside : kind.opensClause = false
  /-- The token separates no items. -/
  joins : isSeparator kind = false
  /-- The token closes no parenthesis. -/
  noClosing : kind ≠ .closeParen
  /-- The token opens no parenthesis either. -/
  level : ∀ depth, depthAfter depth kind = depth

/-- Flat tokens do not matter for what is closed. -/
theorem isClosed_append_of_flat {isSeparator : TokenKind → Bool} {kinds : List TokenKind}
    (flat : ∀ kind ∈ kinds, IsFlat isSeparator kind) (depth : Nat) (rest : List TokenKind) :
    isClosed isSeparator depth (kinds ++ rest) = isClosed isSeparator depth rest := by
  induction kinds with
  | nil => rfl
  | cons kind kinds inductionHypothesis =>
    obtain ⟨here, behind⟩ := List.forall_mem_cons.mp flat
    rw [List.cons_append, isClosed, here.joins, here.level, inductionHypothesis behind,
      Bool.and_false, Bool.not_false, Bool.true_and]

/-- A name as it is spelled. -/
inductive NameSpelling where
  /-- A word without quotes. -/
  | bare (word : List Char)
  /-- The text between double quotes. -/
  | quoted (body : List Char)
  deriving DecidableEq, Repr

namespace NameSpelling

/-- What a name is as a token. -/
def kind : NameSpelling → TokenKind
  | bare word => .name word
  | quoted body => .quotedName body

/-- The name that is spelled. -/
def text : NameSpelling → List Char
  | bare word => word
  | quoted body => undouble '"' body

/-- A token of this kind has the name. -/
theorem name?_of_kind {token : Token} {name : NameSpelling} (same : token.kind = name.kind) :
    token.name? = some name.text := by
  cases name <;> simp [Token.name?, same, kind, text]

/-- A name is flat. -/
theorem isFlat (name : NameSpelling) : IsFlat isComma name.kind ∧ IsFlat isAnd name.kind := by
  cases name <;> exact ⟨⟨rfl, rfl, nofun, fun _ => rfl⟩, ⟨rfl, rfl, nofun, fun _ => rfl⟩⟩

end NameSpelling

/-- A field as it is spelled. -/
inductive FieldSpelling where
  /-- A name alone. -/
  | plain (name : NameSpelling)
  /-- A star, which is a field of that name. -/
  | star
  /-- A name after a qualifier and a dot. -/
  | qualified (qualifier name : NameSpelling)
  deriving DecidableEq, Repr

namespace FieldSpelling

/-- The tokens of a field. -/
def kinds : FieldSpelling → List TokenKind
  | plain name => [name.kind]
  | star => [.star]
  | qualified qualifier name => [qualifier.kind, .dot, name.kind]

/-- The field that is spelled. -/
def text : FieldSpelling → List Char
  | plain name => name.text
  | star => ['*']
  | qualified _ name => name.text

/-- The tokens of a field are flat. -/
theorem isFlat (field : FieldSpelling) : ∀ kind ∈ field.kinds, IsFlat isComma kind := by
  intro kind member
  cases field with
  | plain name =>
    rw [List.mem_singleton.mp member]
    exact name.isFlat.1
  | star =>
    rw [List.mem_singleton.mp member]
    exact ⟨rfl, rfl, nofun, fun _ => rfl⟩
  | qualified qualifier name =>
    simp only [kinds, List.mem_cons, List.not_mem_nil, or_false] at member
    rcases member with rfl | rfl | rfl
    · exact qualifier.isFlat.1
    · exact ⟨rfl, rfl, nofun, fun _ => rfl⟩
    · exact name.isFlat.1

/-- A field has tokens. -/
theorem kinds_ne_nil (field : FieldSpelling) : field.kinds ≠ [] := by
  cases field <;> simp [kinds]

/-- The tokens of a field refer to it. -/
theorem fieldName_of_kinds {tokens : List Token} {field : FieldSpelling}
    (same : tokens.map Token.kind = field.kinds) : fieldName tokens = field.text := by
  cases field with
  | plain name =>
    simp only [kinds, List.map_eq_cons_iff, List.map_eq_nil_iff] at same
    obtain ⟨token, _, rfl, kind, rfl⟩ := same
    simp [fieldName, NameSpelling.name?_of_kind kind, text]
  | star =>
    simp only [kinds, List.map_eq_cons_iff, List.map_eq_nil_iff] at same
    obtain ⟨token, _, rfl, kind, rfl⟩ := same
    simp [fieldName, Token.name?, kind, text]
  | qualified qualifier name =>
    simp only [kinds, List.map_eq_cons_iff, List.map_eq_nil_iff] at same
    obtain ⟨first, _, rfl, firstKind, dot, _, rfl, dotKind, last, _, rfl, lastKind, rfl⟩ := same
    simp [fieldName, NameSpelling.name?_of_kind firstKind, dotKind,
      NameSpelling.name?_of_kind lastKind, text]

end FieldSpelling

/-- A value as it is spelled. -/
inductive ValueSpelling where
  /-- The text between single quotes. -/
  | string (body : List Char)
  /-- The text between single quotes after an `E`. -/
  | escaped (body : List Char)
  /-- A name, bare or in double quotes. -/
  | word (name : NameSpelling)
  | number (digits : List Char)
  deriving DecidableEq, Repr

namespace ValueSpelling

/-- What a value is as a token. -/
def kind : ValueSpelling → TokenKind
  | string body => .string body
  | escaped body => .escapedString body
  | word name => name.kind
  | number digits => .number digits

/-- The value that is spelled. -/
def text : ValueSpelling → List Char
  | string body => undouble '\'' body
  | escaped body => unescape body
  | word name => name.text
  | number digits => digits

/-- A token of this kind writes the value. -/
theorem literalValue_of_kind {token : Token} {value : ValueSpelling}
    (same : token.kind = value.kind) : literalValue [token] = value.text := by
  cases value with
  | string body => simp [literalValue, same, kind, text]
  | escaped body => simp [literalValue, same, kind, text]
  | word name =>
    cases name <;> simp [literalValue, same, kind, text, NameSpelling.kind, NameSpelling.text]
  | number digits => simp [literalValue, same, kind, text]

end ValueSpelling

/-- An item of a select list as it is spelled. -/
inductive ItemSpelling where
  | field (spelling : FieldSpelling)
  /-- A call of a function, with the column after `AS` if there is one. -/
  | call (function : List Char) (argument : FieldSpelling) (column : Option NameSpelling)
  deriving DecidableEq, Repr

namespace ItemSpelling

/-- The tokens of the column of a call. -/
def columnKinds : Option NameSpelling → List TokenKind
  | some name => [.keyword .AS, name.kind]
  | none => []

/-- The tokens of an item. -/
def kinds : ItemSpelling → List TokenKind
  | field spelling => spelling.kinds
  | call function argument column =>
      .name function :: .openParen :: (argument.kinds ++ .closeParen :: columnKinds column)

/-- What an item asks for. -/
def query : ItemSpelling → Query
  | field spelling => { fields := [String.ofList spelling.text] }
  | call function argument column =>
      { aggregations :=
          [⟨.ofName (String.ofList function), String.ofList argument.text,
            String.ofList ((column.map NameSpelling.text).getD argument.text)⟩] }

/-- An argument holds no parentheses, so a call closes right behind it. -/
theorem splitClosing_argument {argument : FieldSpelling} {inside after : List Token} {close : Token}
    (shape : inside.map Token.kind = argument.kinds) (closes : close.kind = .closeParen) :
    splitClosing 0 (inside ++ close :: after) = some (inside, after) := by
  have flat : ∀ token ∈ inside, depthAfter 0 token.kind = 0 ∧ token.kind ≠ .closeParen := by
    intro token member
    have listed : token.kind ∈ argument.kinds := shape ▸ List.mem_map_of_mem member
    exact ⟨(argument.isFlat _ listed).level 0, (argument.isFlat _ listed).noClosing⟩
  clear shape
  induction inside with
  | nil => simp [splitClosing, closes]
  | cons token inside inductionHypothesis =>
    obtain ⟨⟨level, noClosing⟩, behind⟩ := List.forall_mem_cons.mp flat
    simp [splitClosing, noClosing, level, inductionHypothesis behind]

/-- The column of a call is the name behind `AS`, or the argument. -/
theorem columnOf_of_kinds {column : Option NameSpelling} {after : List Token}
    (shape : after.map Token.kind = columnKinds column) (field : List Char) :
    columnOf field after = (column.map NameSpelling.text).getD field := by
  cases column with
  | none =>
    have nothing : after = [] := by simpa [columnKinds] using shape
    simp [nothing, columnOf]
  | some name =>
    simp only [columnKinds, List.map_eq_cons_iff, List.map_eq_nil_iff] at shape
    obtain ⟨asWord, _, rfl, asKind, token, _, rfl, kind, rfl⟩ := shape
    simp [columnOf, asKind, fieldName, NameSpelling.name?_of_kind kind]

/-- The tokens of a field are no call. -/
theorem readCall?_field {spelling : FieldSpelling} {tokens : List Token}
    (same : tokens.map Token.kind = spelling.kinds) : readCall? tokens = none := by
  cases spelling with
  | plain name =>
    simp only [FieldSpelling.kinds, List.map_eq_cons_iff, List.map_eq_nil_iff] at same
    obtain ⟨token, _, rfl, _, rfl⟩ := same
    rfl
  | star =>
    simp only [FieldSpelling.kinds, List.map_eq_cons_iff, List.map_eq_nil_iff] at same
    obtain ⟨token, _, rfl, _, rfl⟩ := same
    rfl
  | qualified qualifier name =>
    simp only [FieldSpelling.kinds, List.map_eq_cons_iff, List.map_eq_nil_iff] at same
    obtain ⟨first, _, rfl, _, dot, _, rfl, dotKind, last, _, rfl, _, rfl⟩ := same
    simp [readCall?, dotKind]

/-- The tokens of an item ask for what the item asks for. -/
theorem readSelectItem_of_kinds {tokens : List Token} {item : ItemSpelling}
    (same : tokens.map Token.kind = item.kinds) : (readSelectItem tokens).query = item.query := by
  cases item with
  | field spelling =>
    rw [readSelectItem, readCall?_field same, FieldSpelling.fieldName_of_kinds same]
    rfl
  | call function argument column =>
    simp only [kinds, List.map_eq_cons_iff, List.map_eq_append_iff] at same
    obtain ⟨first, _, rfl, firstKind, paren, _, rfl, parenKind, inside, _, rfl, insideShape,
      close, after, rfl, closeKind, afterShape⟩ := same
    have some : inside.isEmpty = false := by
      cases argument <;> cases inside <;> simp_all [FieldSpelling.kinds]
    simp [readSelectItem, readCall?, firstKind, parenKind,
      splitClosing_argument insideShape closeKind, some,
      FieldSpelling.fieldName_of_kinds insideShape, columnOf_of_kinds afterShape,
      SelectItem.query, query]

end ItemSpelling

/-- A condition as it is spelled. -/
structure ConditionSpelling where
  /-- The field, which has no qualifier here. -/
  field : NameSpelling
  /-- The comparison. -/
  comparison : Comparison
  /-- The value. -/
  value : ValueSpelling
  deriving DecidableEq, Repr

/-- The token of a comparison. -/
def Comparison.kind : Comparison → TokenKind
  | equal => .equal
  | greater => .greater
  | less => .less
  | atLeast => .atLeast
  | atMost => .atMost
  | like => .keyword .LIKE

namespace ConditionSpelling

/-- The tokens of a condition. -/
def kinds (condition : ConditionSpelling) : List TokenKind :=
  [condition.field.kind, condition.comparison.kind, condition.value.kind]

/-- The condition that is spelled. -/
def condition (spelling : ConditionSpelling) : Condition :=
  ⟨String.ofList spelling.field.text, spelling.comparison, String.ofList spelling.value.text⟩

/-- The tokens of a condition are read as the condition. -/
theorem readCondition_of_kinds {tokens : List Token} {spelling : ConditionSpelling}
    (same : tokens.map Token.kind = spelling.kinds) :
    readCondition tokens = .ok spelling.condition := by
  simp only [kinds, List.map_eq_cons_iff, List.map_eq_nil_iff] at same
  obtain ⟨field, _, rfl, fieldKind, sign, _, rfl, signKind, value, _, rfl, valueKind, rfl⟩ := same
  have comparison : comparisonOf? sign.kind = some spelling.comparison := by
    rw [signKind]
    cases spelling.comparison <;> rfl
  simp [readCondition, NameSpelling.name?_of_kind fieldKind, comparison,
    ValueSpelling.literalValue_of_kind valueKind, condition]

end ConditionSpelling

/-- A list behind its keywords; a list without items is left out. -/
def listKinds (keywords : List TokenKind) (separator : TokenKind) (items : List (List TokenKind)) :
    List TokenKind :=
  if items.isEmpty then [] else keywords ++ separated separator items

/-- A sentence as it is spelled. -/
structure Sentence where
  /-- The items of the select list. -/
  items : List ItemSpelling
  /-- The table. -/
  table : NameSpelling
  /-- The conditions. -/
  conditions : List ConditionSpelling
  /-- The fields of the grouping. -/
  grouping : List FieldSpelling
  deriving DecidableEq, Repr

namespace Sentence

/-- The tokens of a sentence after its select list. -/
def tableKinds (sentence : Sentence) : List TokenKind :=
  .keyword .FROM :: sentence.table.kind ::
    (listKinds [.keyword .WHERE] (.keyword .AND)
        (sentence.conditions.map ConditionSpelling.kinds) ++
      listKinds [.keyword .GROUP, .keyword .BY] .comma
        (sentence.grouping.map FieldSpelling.kinds))

/-- The tokens of a sentence. -/
def kinds (sentence : Sentence) : List TokenKind :=
  .keyword .SELECT ::
    (separated .comma (sentence.items.map ItemSpelling.kinds) ++ sentence.tableKinds)

/-- The query that a sentence writes. -/
def query (sentence : Sentence) : Query :=
  (mergeAll (sentence.items.map ItemSpelling.query)).merge {
    table := String.ofList sentence.table.text
    conditions := sentence.conditions.map ConditionSpelling.condition
    grouping := sentence.grouping.map fun field => String.ofList field.text }

end Sentence

/-- Whether some kinds of tokens are an item of a list: there are some, none opens
a clause, and the item is closed. -/
structure IsItem (isSeparator : TokenKind → Bool) (kinds : List TokenKind) : Prop where
  /-- There are some. -/
  some : kinds ≠ []
  /-- None of them opens a clause. -/
  inside : ∀ kind ∈ kinds, kind.opensClause = false
  /-- The item is closed. -/
  closed : isClosed isSeparator 0 kinds = true

/-- Flat tokens are an item if there are any. -/
theorem isItem_of_flat {isSeparator : TokenKind → Bool} {kinds : List TokenKind}
    (some : kinds ≠ []) (flat : ∀ kind ∈ kinds, IsFlat isSeparator kind) :
    IsItem isSeparator kinds := by
  refine ⟨some, fun kind member => (flat kind member).inside, ?_⟩
  have closed := isClosed_append_of_flat flat 0 []
  rw [List.append_nil] at closed
  exact closed

/-- A field is an item. -/
theorem FieldSpelling.isItem (field : FieldSpelling) : IsItem isComma field.kinds :=
  isItem_of_flat field.kinds_ne_nil field.isFlat

/-- An item of a select list is an item. -/
theorem ItemSpelling.isItem (item : ItemSpelling) : IsItem isComma item.kinds := by
  cases item with
  | field spelling => exact spelling.isItem
  | call function argument column =>
    have columnFlat : ∀ kind ∈ columnKinds column, IsFlat isComma kind := by
      intro kind member
      cases column with
      | none => simp [columnKinds] at member
      | some name =>
        simp only [columnKinds, List.mem_cons, List.not_mem_nil, or_false] at member
        rcases member with rfl | rfl
        · exact ⟨rfl, rfl, nofun, fun _ => rfl⟩
        · exact name.isFlat.1
    refine ⟨by simp [kinds], ?_, ?_⟩
    · intro kind member
      simp only [kinds, List.mem_cons, List.mem_append] at member
      rcases member with rfl | rfl | inside | rfl | behind
      · rfl
      · rfl
      · exact argument.isItem.inside kind inside
      · rfl
      · exact (columnFlat kind behind).inside
    · have behind : isClosed isComma 0 (columnKinds column) = true := by
        have closed := isClosed_append_of_flat columnFlat 0 []
        rw [List.append_nil] at closed
        exact closed
      calc isClosed isComma 0 (kinds (call function argument column))
          = isClosed isComma 1 (argument.kinds ++ .closeParen :: columnKinds column) := rfl
        _ = isClosed isComma 1 (.closeParen :: columnKinds column) :=
          isClosed_append_of_flat argument.isFlat 1 _
        _ = isClosed isComma 0 (columnKinds column) := rfl
        _ = true := behind

/-- A condition is an item. -/
theorem ConditionSpelling.isItem (condition : ConditionSpelling) :
    IsItem isAnd condition.kinds := by
  have sign : IsFlat isAnd condition.comparison.kind := by
    cases condition.comparison <;> exact ⟨rfl, rfl, nofun, fun _ => rfl⟩
  have value : IsFlat isAnd condition.value.kind := by
    cases condition.value with
    | word name => exact name.isFlat.2
    | _ => exact ⟨rfl, rfl, nofun, fun _ => rfl⟩
  refine isItem_of_flat (by simp [kinds]) ?_
  intro kind member
  simp only [kinds, List.mem_cons, List.not_mem_nil, or_false] at member
  rcases member with rfl | rfl | rfl
  · exact condition.field.isFlat.2
  · exact sign
  · exact value

/-- What stands in joined lists is a separator or stands in one of them. -/
theorem mem_separated {α : Type} {separator element : α} {lists : List (List α)}
    (member : element ∈ separated separator lists) :
    element = separator ∨ ∃ list ∈ lists, element ∈ list := by
  fun_induction separated separator lists with
  | case1 => simp at member
  | case2 only => exact .inr ⟨only, List.mem_cons_self, member⟩
  | case3 first second later inductionHypothesis =>
    rcases List.mem_append.mp member with here | behind
    · exact .inr ⟨first, List.mem_cons_self, here⟩
    rcases List.mem_cons.mp behind with separates | behind
    · exact .inl separates
    rcases inductionHypothesis behind with separates | ⟨list, listed, inside⟩
    · exact .inl separates
    · exact .inr ⟨list, List.mem_cons_of_mem _ listed, inside⟩

section Items

variable {α : Type} {isSeparator : TokenKind → Bool} {separator : TokenKind} {spellings : List α}
  {kindsOf : α → List TokenKind} {tokens : List Token}

/-- Tokens that spell a list of items open no clause. -/
theorem inside_of_items
    (shape : tokens.map Token.kind = separated separator (spellings.map kindsOf))
    (items : ∀ spelling, IsItem isSeparator (kindsOf spelling))
    (noOpening : separator.opensClause = false) :
    ∀ token ∈ tokens, token.opensClause = false := by
  intro token member
  have listed : token.kind ∈ separated separator (spellings.map kindsOf) :=
    shape ▸ List.mem_map_of_mem member
  rcases mem_separated listed with same | ⟨list, belongs, inside⟩
  · exact (congrArg TokenKind.opensClause same).trans noOpening
  · obtain ⟨spelling, _, rfl⟩ := List.mem_map.mp belongs
    exact (items spelling).inside _ inside

/-- Tokens that spell a list of items are read as these items. -/
theorem map_splitItems_of_kinds {β : Type} {read : List Token → β} {meaning : α → β}
    (shape : tokens.map Token.kind = separated separator (spellings.map kindsOf))
    (separates : isSeparator separator = true)
    (items : ∀ spelling, IsItem isSeparator (kindsOf spelling))
    (reads : ∀ item spelling, item.map Token.kind = kindsOf spelling →
      read item = meaning spelling) :
    (splitItems isSeparator tokens).map read = spellings.map meaning := by
  have lists : (splitItems isSeparator tokens).map (List.map Token.kind) =
      spellings.map kindsOf := by
    refine kinds_splitItems separates shape ?_
    intro list member
    obtain ⟨spelling, _, rfl⟩ := List.mem_map.mp member
    exact ⟨(items spelling).some, (items spelling).closed⟩
  exact map_of_kinds lists reads

end Items

namespace Sentence

/-- The tokens of a select list ask for what its items ask for. -/
theorem readSelect_of_kinds {body : List Token} {items : List ItemSpelling}
    (shape : body.map Token.kind = separated .comma (items.map ItemSpelling.kinds)) :
    readSelect body = mergeAll (items.map ItemSpelling.query) :=
  congrArg mergeAll <| map_splitItems_of_kinds shape rfl ItemSpelling.isItem
    fun _ _ same => ItemSpelling.readSelectItem_of_kinds same

/-- The tokens of items that are read as conditions, or as none, are read as these conditions. -/
theorem readConditions_of_kinds {α : Type} {kindsOf : α → List TokenKind}
    {meaning : α → Option Condition} {body : List Token} {spellings : List α}
    (shape : body.map Token.kind = separated (.keyword .AND) (spellings.map kindsOf))
    (items : ∀ spelling, IsItem isAnd (kindsOf spelling))
    (reads : ∀ item spelling, item.map Token.kind = kindsOf spelling →
      (readCondition item).toOption = meaning spelling) :
    understood (readConditions body) = spellings.filterMap meaning := by
  have read : (splitItems isAnd body).map (fun item => (readCondition item).toOption) =
      spellings.map meaning :=
    map_splitItems_of_kinds shape rfl items reads
  calc understood (readConditions body)
      = ((splitItems isAnd body).map fun item => (readCondition item).toOption).filterMap id := by
        rw [understood_eq_filterMap, readConditions, List.filterMap_map, List.filterMap_map]
        rfl
    _ = spellings.filterMap meaning := by
        rw [read, List.filterMap_map]
        rfl

/-- The tokens of a grouping are read as its fields. -/
theorem readGrouping_of_kinds {body : List Token} {grouping : List FieldSpelling}
    (ending : Option Token)
    (shape : body.map Token.kind =
      .keyword .BY :: separated .comma (grouping.map FieldSpelling.kinds)) :
    readGrouping ⟨.GROUP, body, ending⟩ =
      .ok (grouping.map fun field => String.ofList field.text) := by
  obtain ⟨by', fields, rfl, byKind, fieldsShape⟩ := List.map_eq_cons_iff.mp shape
  have read : (splitItems isComma fields).map (fun item => String.ofList (fieldName item)) =
      grouping.map fun field => String.ofList field.text :=
    map_splitItems_of_kinds fieldsShape rfl FieldSpelling.isItem
      fun _ _ same => congrArg String.ofList (FieldSpelling.fieldName_of_kinds same)
  simp [readGrouping, byKind, read]

/-- The tokens after the conditions add the grouping, if there is one. -/
theorem ofTokens_grouping {tokens : List Token} {grouping : List FieldSpelling}
    (shape : tokens.map Token.kind =
      listKinds [.keyword .GROUP, .keyword .BY] .comma (grouping.map FieldSpelling.kinds)) :
    AfterClause tokens ∧
      Query.ofTokens tokens =
        { grouping := grouping.map fun field => String.ofList field.text } := by
  cases grouping with
  | nil =>
    have nothing : tokens = [] := List.map_eq_nil_iff.mp shape
    subst nothing
    exact ⟨nofun, rfl⟩
  | cons field later =>
    obtain ⟨opening, body, rfl, kind, bodyShape⟩ := List.map_eq_cons_iff.mp shape
    obtain ⟨by', fields, rfl, byKind, fieldsShape⟩ := List.map_eq_cons_iff.mp bodyShape
    have inside : ∀ token ∈ by' :: fields, token.opensClause = false := by
      rintro token (_ | ⟨_, member⟩)
      · simp [Token.opensClause, byKind, TokenKind.opensClause, Keyword.opensClause]
      · exact inside_of_items fieldsShape FieldSpelling.isItem rfl token member
    constructor
    · rintro token ⟨⟩
      simp [Token.opensClause, kind, TokenKind.opensClause, Keyword.opensClause]
    · have read := readGrouping_of_kinds none bodyShape
      have atEnd : AfterClause [] := nofun
      have whole := ofTokens_clause kind rfl inside atEnd
      rw [List.append_nil] at whole
      rw [whole]
      simp only [List.head?_nil, Clause.query, read]
      exact Query.merge_empty_right _

/-- The tokens after the table add the conditions that items are read as, and the grouping. -/
theorem ofTokens_items {α : Type} {kindsOf : α → List TokenKind} {meaning : α → Option Condition}
    {tokens : List Token} {spellings : List α} {grouping : List FieldSpelling}
    (shape : tokens.map Token.kind =
      listKinds [.keyword .WHERE] (.keyword .AND) (spellings.map kindsOf) ++
        listKinds [.keyword .GROUP, .keyword .BY] .comma (grouping.map FieldSpelling.kinds))
    (items : ∀ spelling, IsItem isAnd (kindsOf spelling))
    (reads : ∀ item spelling, item.map Token.kind = kindsOf spelling →
      (readCondition item).toOption = meaning spelling) :
    AfterClause tokens ∧
      Query.ofTokens tokens =
        { conditions := spellings.filterMap meaning
          grouping := grouping.map fun field => String.ofList field.text } := by
  cases spellings with
  | nil => exact ofTokens_grouping shape
  | cons spelling later =>
    obtain ⟨front, rest, rfl, frontShape, restShape⟩ := List.map_eq_append_iff.mp shape
    obtain ⟨opening, body, rfl, kind, bodyShape⟩ := List.map_eq_cons_iff.mp frontShape
    obtain ⟨after, read⟩ := ofTokens_grouping restShape
    have inside : ∀ token ∈ body, token.opensClause = false := inside_of_items bodyShape items rfl
    constructor
    · rintro token ⟨⟩
      simp [Token.opensClause, kind, TokenKind.opensClause, Keyword.opensClause]
    · rw [List.cons_append, ofTokens_clause kind rfl inside after, read]
      simp only [Clause.query, readConditions_of_kinds bodyShape items reads]
      simp [Query.merge]

/-- The tokens after the table add the conditions and the grouping. -/
theorem ofTokens_conditions {tokens : List Token} {conditions : List ConditionSpelling}
    {grouping : List FieldSpelling}
    (shape : tokens.map Token.kind =
      listKinds [.keyword .WHERE] (.keyword .AND) (conditions.map ConditionSpelling.kinds) ++
        listKinds [.keyword .GROUP, .keyword .BY] .comma (grouping.map FieldSpelling.kinds)) :
    AfterClause tokens ∧
      Query.ofTokens tokens =
        { conditions := conditions.map ConditionSpelling.condition
          grouping := grouping.map fun field => String.ofList field.text } := by
  have read := ofTokens_items shape ConditionSpelling.isItem fun item spelling same =>
    congrArg Except.toOption (ConditionSpelling.readCondition_of_kinds same)
  simpa [Except.toOption] using read

/-- The tokens after the select list add the table and what follows it. -/
theorem ofTokens_table {tokens : List Token} {sentence : Sentence}
    (shape : tokens.map Token.kind = sentence.tableKinds) :
    AfterClause tokens ∧
      Query.ofTokens tokens =
        { table := String.ofList sentence.table.text
          conditions := sentence.conditions.map ConditionSpelling.condition
          grouping := sentence.grouping.map fun field => String.ofList field.text } := by
  obtain ⟨opening, later, rfl, kind, laterShape⟩ := List.map_eq_cons_iff.mp shape
  obtain ⟨table, rest, rfl, tableKind, restShape⟩ := List.map_eq_cons_iff.mp laterShape
  obtain ⟨after, read⟩ := ofTokens_conditions restShape
  have inside : ∀ token ∈ [table], token.opensClause = false := by
    intro token member
    rw [List.mem_singleton.mp member, Token.opensClause, tableKind]
    exact sentence.table.isFlat.1.inside
  constructor
  · rintro token ⟨⟩
    simp [Token.opensClause, kind, TokenKind.opensClause, Keyword.opensClause]
  · rw [← List.singleton_append (l := rest), ofTokens_clause kind rfl inside after, read]
    simp [Clause.query, Clause.ahead, readTable, NameSpelling.name?_of_kind tableKind, Query.merge]

/-- The tokens of a sentence are read as the query that it writes. -/
theorem ofTokens_of_kinds {tokens : List Token} {sentence : Sentence}
    (shape : tokens.map Token.kind = sentence.kinds) :
    Query.ofTokens tokens = sentence.query := by
  obtain ⟨opening, later, rfl, kind, laterShape⟩ := List.map_eq_cons_iff.mp shape
  obtain ⟨body, rest, rfl, bodyShape, restShape⟩ := List.map_eq_append_iff.mp laterShape
  obtain ⟨after, read⟩ := ofTokens_table restShape
  have inside : ∀ token ∈ body, token.opensClause = false :=
    inside_of_items bodyShape ItemSpelling.isItem rfl
  rw [ofTokens_clause kind rfl inside after, read]
  simp only [Clause.query, readSelect_of_kinds bodyShape]
  rfl

end Sentence

end MetricQuery
