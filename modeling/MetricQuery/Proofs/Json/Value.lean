import MetricQuery.Json.Reader
import MetricQuery.Json.Writer
import MetricQuery.Proofs.Json.Lexeme
import MetricQuery.Proofs.SortedMap

/-!
# Written values are read back

What is written for a value is read as the value, and reading stops behind it. This
is stated with any words behind, so the elements of a list and the members of an
object follow from each other: in front of every later one stands a comma, and
behind the last one a bracket or a brace.

A record is read into a draft, member by member. Members in any order fill a draft
if each is a field that was not set before and is read into what the draft holds
next. So a record is read back once its members are listed with the drafts between
them. A map is read back because its keys are written in ascending order: each entry that
is read is put behind those before it.

The words of a list, an object or a map follow from the words of its parts also where a
part is split into other words than were written.
-/

namespace MetricQuery

/-- Whether an integer fits a word of 64 bits with a sign. -/
def Word.IsSigned (value : Int) : Prop :=
  -(largestNegative : Int) ≤ value ∧ value ≤ (largestSigned : Int)

instance (value : Int) : Decidable (Word.IsSigned value) :=
  inferInstanceAs (Decidable (_ ∧ _))

namespace Json

variable {α δ : Type}

/-! ## Words of written values -/

/-- Behind the first of several sequences of words a comma stands before each other one. -/
theorem separated_cons (first : List Lexeme) (later : List (List Lexeme)) :
    separated (first :: later) = first ++ later.flatMap (.comma :: ·) := by
  induction later generalizing first with
  | nil => simp [separated]
  | cons second later inductionHypothesis =>
    rw [separated, inductionHypothesis, List.flatMap_cons, List.cons_append]
    nofun

/-- There are no more sequences than words and commas between them. -/
theorem length_le_separated (parts : List (List Lexeme)) :
    parts.length ≤ (separated parts).length + 1 := by
  induction parts with
  | nil => exact Nat.zero_le 1
  | cons first later inductionHypothesis =>
    cases later with
    | nil => simp
    | cons second later =>
      rw [separated]
      · simp only [List.length_append, List.length_cons] at inductionHypothesis ⊢
        omega
      · nofun

/-- Sequences of words are split with commas between them. -/
theorem splitsInto_separated {parts found : List (List Lexeme)}
    (splits : List.Forall₂ SplitsInto parts found) :
    SplitsInto (separated parts) (separated found) := by
  induction splits with
  | nil => exact readsBack_nil
  | @cons first foundFirst later foundLater here behind inductionHypothesis =>
    cases behind with
    | nil => exact here
    | cons => exact here.append rfl inductionHypothesis

/-- A list is split as its elements are. -/
theorem splitsInto_list {elements found : List (List Lexeme)}
    (splits : List.Forall₂ SplitsInto elements found) : SplitsInto (list elements) (list found) :=
  .cons (isDelimited_punctuation rfl) ((splitsInto_separated splits).append rfl readsBack_nil)

/-- A list of written values is split as the values are. -/
theorem splitsInto_list_map {write : α → List Lexeme} (change : α → α) {values : List α}
    (splits : ∀ value ∈ values, SplitsInto (write value) (write (change value))) :
    SplitsInto (list (values.map write)) (list ((values.map change).map write)) := by
  refine splitsInto_list ?_
  rw [List.map_map, List.forall₂_map_left_iff, List.forall₂_map_right_iff, List.forall₂_same]
  exact splits

/-- An object is split as its members are. -/
theorem splitsInto_object {members found : List (List Lexeme)}
    (splits : List.Forall₂ SplitsInto members found) :
    SplitsInto (object members) (object found) :=
  .cons (isDelimited_punctuation rfl) ((splitsInto_separated splits).append rfl readsBack_nil)

/-- A member is split as its value is. -/
theorem splitsInto_member (key : String) {value found : List Lexeme}
    (splits : SplitsInto value found) : SplitsInto (member key value) (member key found) :=
  .cons (isDelimited_text key.toList) (.cons (isDelimited_punctuation rfl) splits)

/-- A list of elements that are read back is read back. -/
theorem readsBack_list {elements : List (List Lexeme)}
    (readsBack : ∀ words ∈ elements, ReadsBack words) : ReadsBack (list elements) :=
  splitsInto_list (List.forall₂_same.mpr readsBack)

/-- An object of members that are read back is read back. -/
theorem readsBack_object {members : List (List Lexeme)}
    (readsBack : ∀ words ∈ members, ReadsBack words) : ReadsBack (object members) :=
  splitsInto_object (List.forall₂_same.mpr readsBack)

/-- A member of a value that is read back is read back. -/
theorem readsBack_member (key : String) {value : List Lexeme} (readsBack : ReadsBack value) :
    ReadsBack (member key value) :=
  splitsInto_member key readsBack

/-- A string is read back. -/
theorem readsBack_string (value : String) : ReadsBack (string value) :=
  (isDelimited_text value.toList).readsBack

/-- An integer of 64 bits with a sign is read back. -/
theorem readsBack_integer {value : Int} (fits : Word.IsSigned value) :
    ReadsBack (integer value) := by
  obtain ⟨least, most⟩ := fits
  rw [integer]
  split
  · exact readsBack_negative (by omega) (by omega)
  · have word : Word.largestSigned ≤ Word.largest := by decide
    exact readsBack_natural (by omega)

/-! ## Readers -/

/-- Whether a reader takes a value from some words, whatever follows them. -/
def Reads (reader : Reader α) (depth : Nat) (words : List Lexeme) (value : α) : Prop :=
  ∀ rest, reader depth (words ++ rest) = .ok (value, rest)

/-- A text is read whole if its value is read from the words that it is split into. -/
theorem decode_render {reader : Reader α} {written found : List Lexeme} {value : α}
    (splits : SplitsInto written found) (reads : Reads reader depthLimit found value) :
    decode reader (render written) = .ok value := by
  have whole := reads []
  rw [List.append_nil] at whole
  rw [decode, scan_render splits, whole]
  rfl

/-- A string is read as itself. -/
theorem reads_string (depth : Nat) (value : String) : Reads readText depth (string value) value := by
  intro rest
  simp [string, readText]

/-- An integer of 64 bits with a sign is read as itself. -/
theorem reads_integer (depth : Nat) {value : Int} (fits : Word.IsSigned value) :
    Reads readInteger depth (integer value) value := by
  intro rest
  obtain ⟨least, most⟩ := fits
  rw [integer]
  split
  · have magnitude : -(value.natAbs : Int) = value := by omega
    simp only [List.singleton_append, readInteger, magnitude]
  · have magnitude : (value.toNat : Int) = value := by omega
    have small : value.toNat ≤ Word.largestSigned := by omega
    simp [readInteger, small, magnitude]

/-- The name of a choice is read as the choice. -/
theorem reads_variant (depth : Nat) {variants : List (String × α)} {name : String} {choice : α}
    (known : variants.find? (fun variant => variant.1 = name) = some (name, choice)) :
    Reads (readVariant variants) depth (string name) choice := by
  intro rest
  simp [string, readVariant, variantOf, known]
  rfl

/-- The name of a choice is read as the choice where there may be none. -/
theorem reads_optional {reader : Reader α} {depth : Nat} {name : String} {value : α}
    (reads : Reads reader depth (string name) value) :
    Reads (readOptional reader) depth (string name) (some value) := by
  intro rest
  have read : reader depth (.text name.toList :: rest) = .ok (value, rest) := reads rest
  simp only [string, List.singleton_append, readOptional, read]
  rfl

/-- Whether some words start like a value, and not like the end of a list or a comma. -/
def StartsValue (words : List Lexeme) : Prop :=
  ∃ word later, words = word :: later ∧ word ≠ .closeBracket ∧ word ≠ .comma

/-- An object starts like a value. -/
theorem startsValue_object (members : List (List Lexeme)) : StartsValue (object members) :=
  ⟨.openBrace, _, rfl, nofun, nofun⟩

/-- What starts like a value does so whatever follows it. -/
theorem StartsValue.append {words : List Lexeme} (starts : StartsValue words)
    (rest : List Lexeme) : StartsValue (words ++ rest) := by
  obtain ⟨word, later, rfl, noEnd, noComma⟩ := starts
  exact ⟨word, later ++ rest, rfl, noEnd, noComma⟩

/-- The first element of a list starts where the list does. -/
theorem nextElement_first {words : List Lexeme} (starts : StartsValue words) :
    nextElement true words = .ok (some words) := by
  obtain ⟨word, later, rfl, noEnd, noComma⟩ := starts
  cases word with
  | closeBracket => exact absurd rfl noEnd
  | _ => rfl

/-- A later element of a list starts behind a comma. -/
theorem nextElement_later {words : List Lexeme} (starts : StartsValue words) :
    nextElement false (.comma :: words) = .ok (some words) := by
  obtain ⟨word, later, rfl, noEnd, noComma⟩ := starts
  cases word with
  | closeBracket => exact absurd rfl noEnd
  | _ => rfl

/-- Each element of a list is read before the others. -/
theorem readElements_cons {item : Reader α} {depth count : Nat} {first : Bool}
    {before words rest : List Lexeme} {value : α}
    (next : nextElement first before = .ok (some (words ++ rest)))
    (reads : Reads item depth words value) {values : List α} {last : List Lexeme}
    (behind : readElements item depth count false rest = .ok (values, last)) :
    readElements item depth (count + 1) first before = .ok (value :: values, last) := by
  rw [readElements, next]
  simp only [bind, Except.bind, reads rest, behind]

/-- The later elements of a list are read up to its end. -/
theorem readElements_later {item : Reader α} {depth : Nat} {write : α → List Lexeme}
    {values : List α} (reads : ∀ value ∈ values, Reads item depth (write value) value)
    (starts : ∀ value ∈ values, StartsValue (write value)) {count : Nat}
    (enough : values.length < count) (rest : List Lexeme) :
    readElements item depth count false
        ((values.map write).flatMap (.comma :: ·) ++ .closeBracket :: rest) =
      .ok (values, .closeBracket :: rest) := by
  induction values generalizing count with
  | nil =>
    obtain ⟨count, rfl⟩ := Nat.exists_eq_add_of_lt enough
    rfl
  | cons value later inductionHypothesis =>
    obtain ⟨count, rfl⟩ : ∃ fewer, count = fewer + 1 := ⟨count - 1, by omega⟩
    obtain ⟨readsHere, readsLater⟩ := List.forall_mem_cons.mp reads
    obtain ⟨startsHere, startsLater⟩ := List.forall_mem_cons.mp starts
    have behind := inductionHypothesis readsLater startsLater
      (Nat.lt_of_succ_lt_succ enough)
    refine readElements_cons ?_ readsHere behind
    rw [List.map_cons, List.flatMap_cons, List.cons_append, List.cons_append, List.append_assoc]
    exact nextElement_later (startsHere.append _)

/-- A list is read if its elements are, and if one more list may be opened. -/
theorem reads_list {item : Reader α} {depth : Nat} {write : α → List Lexeme} {values : List α}
    (room : 1 < depth) (reads : ∀ value ∈ values, Reads item (depth - 1) (write value) value)
    (starts : ∀ value ∈ values, StartsValue (write value)) :
    Reads (readList item) depth (list (values.map write)) values := by
  intro rest
  have inner : deeper depth = .ok (depth - 1) := if_neg (Nat.not_le.mpr room)
  have elements : ∀ count, values.length < count →
      readElements item (depth - 1) count true
          (separated (values.map write) ++ .closeBracket :: rest) =
        .ok (values, .closeBracket :: rest) := by
    intro count enough
    obtain ⟨count, rfl⟩ : ∃ fewer, count = fewer + 1 := ⟨count - 1, by omega⟩
    cases values with
    | nil => rfl
    | cons value later =>
      obtain ⟨readsHere, readsLater⟩ := List.forall_mem_cons.mp reads
      obtain ⟨startsHere, startsLater⟩ := List.forall_mem_cons.mp starts
      have behind := readElements_later readsLater startsLater (Nat.lt_of_succ_lt_succ enough) rest
      refine readElements_cons ?_ readsHere behind
      rw [List.map_cons, separated_cons, List.append_assoc]
      exact nextElement_first (startsHere.append _)
  have written : list (values.map write) ++ rest =
      .openBracket :: (separated (values.map write) ++ .closeBracket :: rest) := by
    simp [list]
  have enough : values.length <
      (separated (values.map write) ++ .closeBracket :: rest).length + 1 := by
    have commas := length_le_separated (values.map write)
    simp only [List.length_map, List.length_append, List.length_cons] at commas ⊢
    omega
  rw [written, readList, inner]
  simp only [bind, Except.bind, elements _ enough]
  rfl

/-! ## Maps -/

/-- A map as it is written is split as its values are. -/
theorem splitsInto_mapOf {write : α → List Lexeme} (change : α → α) {map : SortedMap α}
    (splits : ∀ entry ∈ map.entries, SplitsInto (write entry.2) (write (change entry.2))) :
    SplitsInto (mapOf write map) (mapOf write (map.mapValues change)) := by
  refine splitsInto_object ?_
  rw [SortedMap.mapValues, List.map_map, List.forall₂_map_left_iff, List.forall₂_map_right_iff,
    List.forall₂_same]
  exact fun entry member => splitsInto_member entry.1 (splits entry member)

/-- Each member of a map is read before the others. -/
theorem readMembers_cons {value : Reader α} {depth count : Nat} {first : Bool}
    {before words rest : List Lexeme} {key : String} {content : α} (map : SortedMap α)
    (next : nextKey first before = .ok (some (key, .colon :: (words ++ rest))))
    (reads : Reads value depth words content) :
    readMembers value depth (count + 1) first map before =
      readMembers value depth count false (map.insert key content) rest := by
  rw [readMembers, next]
  simp only [bind, Except.bind, afterColon, reads rest]

/-- The later members of a map are read up to its end. -/
theorem readMembers_later {value : Reader α} {depth : Nat} {write : α → List Lexeme}
    {whole : SortedMap α} {later : List (String × α)}
    (reads : ∀ entry ∈ later, Reads value depth (write entry.2) entry.2) (map : SortedMap α)
    (entries : whole.entries = map.entries ++ later) {count : Nat} (enough : later.length < count)
    (rest : List Lexeme) :
    readMembers value depth count false map
        ((later.map fun entry => member entry.1 (write entry.2)).flatMap (.comma :: ·) ++
          .closeBrace :: rest) = .ok (whole, rest) := by
  induction later generalizing map count with
  | nil =>
    obtain ⟨count, rfl⟩ := Nat.exists_eq_add_of_lt enough
    rw [List.append_nil] at entries
    rw [SortedMap.ext_entries entries]
    rfl
  | cons entry later inductionHypothesis =>
    obtain ⟨count, rfl⟩ : ∃ fewer, count = fewer + 1 := ⟨count - 1, by omega⟩
    obtain ⟨readsHere, readsLater⟩ := List.forall_mem_cons.mp reads
    have behind : ∀ earlier ∈ map.entries, earlier.1 < entry.1 := by
      have ascending := whole.ascending
      rw [entries, List.pairwise_append] at ascending
      exact fun earlier member => ascending.2.2 earlier member entry List.mem_cons_self
    have inserted : whole.entries = (map.insert entry.1 entry.2).entries ++ later := by
      have last := SortedMap.insertEntry_last entry.2 behind
      calc whole.entries = map.entries ++ [entry] ++ later := by
            rw [entries, List.append_assoc, List.singleton_append]
        _ = (map.insert entry.1 entry.2).entries ++ later := congrArg (· ++ later) last.symm
    rw [← inductionHypothesis readsLater _ inserted (Nat.lt_of_succ_lt_succ enough)]
    refine readMembers_cons map ?_ readsHere
    simp [Json.member, nextKey, takeKeyText]

/-- A map is read if its values are, and if one more object may be opened. -/
theorem reads_mapOf {value : Reader α} {depth : Nat} {write : α → List Lexeme}
    {map : SortedMap α} (room : 1 < depth)
    (reads : ∀ entry ∈ map.entries, Reads value (depth - 1) (write entry.2) entry.2) :
    Reads (readMap value) depth (mapOf write map) map := by
  intro rest
  obtain ⟨entries, ascending⟩ := map
  have inner : deeper depth = .ok (depth - 1) := if_neg (Nat.not_le.mpr room)
  have members : ∀ count, entries.length < count →
      readMembers value (depth - 1) count true .empty
          (separated (entries.map fun entry => member entry.1 (write entry.2)) ++
            .closeBrace :: rest) = .ok (⟨entries, ascending⟩, rest) := by
    intro count enough
    obtain ⟨count, rfl⟩ : ∃ fewer, count = fewer + 1 := ⟨count - 1, by omega⟩
    cases entries with
    | nil => rfl
    | cons entry later =>
      obtain ⟨readsHere, readsLater⟩ := List.forall_mem_cons.mp reads
      rw [← readMembers_later readsLater (SortedMap.empty.insert entry.1 entry.2) rfl
        (Nat.lt_of_succ_lt_succ enough) rest]
      refine readMembers_cons _ ?_ readsHere
      simp [separated_cons, Json.member, nextKey, takeKeyText]
  have written : mapOf write ⟨entries, ascending⟩ ++ rest =
      .openBrace :: (separated (entries.map fun entry => member entry.1 (write entry.2)) ++
        .closeBrace :: rest) := by
    simp [mapOf, object]
  have enough : entries.length <
      (separated (entries.map fun entry => member entry.1 (write entry.2)) ++
        .closeBrace :: rest).length + 1 := by
    have commas := length_le_separated (entries.map fun entry => member entry.1 (write entry.2))
    simp only [List.length_map, List.length_append, List.length_cons] at commas ⊢
    omega
  rw [written, readMap, inner]
  simp only [bind, Except.bind]
  exact members _ enough

/-! ## Records -/

/-- Members that fill the fields of a record one after the other, with the drafts
before and behind them. -/
inductive Fills (slots : List (Slot δ)) (depth : Nat) : List (List Lexeme) → δ → δ → Prop where
  | done (draft : δ) : Fills slots depth [] draft draft
  | member {key : String} {value : List Lexeme} {later : List (List Lexeme)}
      {draft filled last : δ} (slot : Slot δ)
      (found : slots.find? (fun slot => slot.name = key) = some slot)
      (unset : slot.isSet draft = false) (reads : Reads (slot.read draft) depth value filled)
      (behind : Fills slots depth later filled last) :
      Fills slots depth (Json.member key value :: later) draft last

/-- What is read for a field fills the draft. -/
theorem Reads.fill {reader : Reader α} {depth : Nat} {words : List Lexeme} {value : α}
    (reads : Reads reader depth words value) (fill : α → δ) :
    Reads (fun depth words => do
      let (content, rest) ← reader depth words
      .ok (fill content, rest)) depth words (fill value) := by
  intro rest
  simp only [reads rest]
  rfl

/-- Each member of an object is read before the others. -/
theorem readFields_cons {slots : List (Slot δ)} {depth count : Nat} {first : Bool}
    {before value rest : List Lexeme} {key : String} {draft filled : δ} {slot : Slot δ}
    (next : nextKey first before = .ok (some (key, .colon :: (value ++ rest))))
    (found : slots.find? (fun slot => slot.name = key) = some slot)
    (unset : slot.isSet draft = false) (reads : Reads (slot.read draft) depth value filled) :
    readFields slots depth (count + 1) first draft before =
      readFields slots depth count false filled rest := by
  rw [readFields, next]
  simp only [bind, Except.bind, found, unset, afterColon, reads rest]
  rfl

/-- The later members of an object are read up to its end. -/
theorem Fills.readFields_later {slots : List (Slot δ)} {depth : Nat} {members : List (List Lexeme)}
    {draft last : δ} (fills : Fills slots depth members draft last) {count : Nat}
    (enough : members.length < count) (rest : List Lexeme) :
    readFields slots depth count false draft
        (members.flatMap (.comma :: ·) ++ .closeBrace :: rest) = .ok (last, rest) := by
  induction fills generalizing count with
  | done draft =>
    obtain ⟨count, rfl⟩ := Nat.exists_eq_add_of_lt enough
    rfl
  | @member key value later draft filled last slot found unset reads behind inductionHypothesis =>
    obtain ⟨count, rfl⟩ : ∃ fewer, count = fewer + 1 := ⟨count - 1, by omega⟩
    rw [← inductionHypothesis (Nat.lt_of_succ_lt_succ enough)]
    refine readFields_cons ?_ found unset reads
    simp [Json.member, nextKey, takeKeyText]

/-- A record is read from an object whose members fill it. -/
theorem reads_record {name : String} {slots : List (Slot δ)} {blank last : δ}
    {finish : δ → Except Fault α} {depth : Nat} {members : List (List Lexeme)} {record : α}
    (room : 1 < depth) (fills : Fills slots (depth - 1) members blank last)
    (finished : finish last = .ok record) :
    Reads (readRecord name slots blank finish) depth (object members) record := by
  intro rest
  have inner : deeper depth = .ok (depth - 1) := if_neg (Nat.not_le.mpr room)
  have fields : ∀ count, members.length < count →
      readFields slots (depth - 1) count true blank
          (separated members ++ .closeBrace :: rest) = .ok (last, rest) := by
    intro count enough
    obtain ⟨count, rfl⟩ : ∃ fewer, count = fewer + 1 := ⟨count - 1, by omega⟩
    cases fills with
    | done draft => rfl
    | member slot found unset reads behind =>
      rw [← behind.readFields_later (Nat.lt_of_succ_lt_succ enough) rest]
      refine readFields_cons ?_ found unset reads
      simp [separated_cons, Json.member, nextKey, takeKeyText]
  have written : object members ++ rest =
      .openBrace :: (separated members ++ .closeBrace :: rest) := by
    simp [object]
  have enough : members.length < (separated members ++ .closeBrace :: rest).length + 1 := by
    have commas := length_le_separated members
    simp only [List.length_append, List.length_cons]
    omega
  rw [written, readRecord, inner]
  simp only [bind, Except.bind, fields _ enough, finished]

end Json

end MetricQuery
