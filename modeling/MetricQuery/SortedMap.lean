/-!
# Maps with sorted keys

A map from text keys to values is held as its list of entries in strictly
ascending key order, together with the proof of that order. Each key occurs at
most once, two maps with the same entries are equal, and whatever walks over a
map sees its keys in the order in which they are printed.

Keys are compared character by character, by code point, which is also the
order of their encoded bytes.
-/

namespace MetricQuery

/-- A finite map from strings, as its entries in strictly ascending key order. -/
structure SortedMap (α : Type) where
  /-- The entries of the map, in key order. -/
  entries : List (String × α)
  /-- Every key is smaller than the keys after it. -/
  ascending : entries.Pairwise (fun earlier later => earlier.1 < later.1)
  deriving DecidableEq

namespace SortedMap

variable {α β : Type}

/-- Put an entry into an ascending list, in place of an entry with the same key. -/
def insertEntry (key : String) (value : α) : List (String × α) → List (String × α)
  | [] => [(key, value)]
  | entry :: later =>
      if key < entry.1 then (key, value) :: entry :: later
      else if key = entry.1 then (key, value) :: later
      else entry :: insertEntry key value later

/-- An inserted list holds the new entry and otherwise only entries of the old list. -/
theorem mem_insertEntry {key : String} {value : α} {entry : String × α}
    {entries : List (String × α)} (member : entry ∈ insertEntry key value entries) :
    entry = (key, value) ∨ entry ∈ entries := by
  induction entries with
  | nil => simpa [insertEntry] using member
  | cons head later hypothesis =>
      rw [insertEntry] at member
      split at member
      · simpa using member
      · split at member
        · rcases List.mem_cons.1 member with new | old
          · exact Or.inl new
          · exact Or.inr (List.mem_cons_of_mem _ old)
        · rcases List.mem_cons.1 member with same | old
          · exact Or.inr (same ▸ List.mem_cons_self)
          · rcases hypothesis old with new | rest
            · exact Or.inl new
            · exact Or.inr (List.mem_cons_of_mem _ rest)

/-- Inserting keeps the keys strictly ascending. -/
theorem insertEntry_ascending (key : String) (value : α) {entries : List (String × α)}
    (ascending : entries.Pairwise (fun earlier later => earlier.1 < later.1)) :
    (insertEntry key value entries).Pairwise (fun earlier later => earlier.1 < later.1) := by
  induction entries with
  | nil => simp [insertEntry]
  | cons head later hypothesis =>
      obtain ⟨headFirst, laterAscending⟩ := List.pairwise_cons.1 ascending
      rw [insertEntry]
      split
      · rename_i before
        refine List.pairwise_cons.2 ⟨fun entry member => ?_, ascending⟩
        rcases List.mem_cons.1 member with same | rest
        · exact same ▸ before
        · exact String.lt_trans before (headFirst entry rest)
      · rename_i notBefore
        split
        · rename_i same
          refine List.pairwise_cons.2 ⟨fun entry member => ?_, laterAscending⟩
          exact same ▸ headFirst entry member
        · rename_i different
          refine List.pairwise_cons.2 ⟨fun entry member => ?_, hypothesis laterAscending⟩
          rcases mem_insertEntry member with new | rest
          · rw [new]
            exact Std.lt_of_le_of_ne (String.not_lt.1 notBefore) (Ne.symm different)
          · exact headFirst entry rest

/-- The map without entries. -/
def empty : SortedMap α := ⟨[], List.Pairwise.nil⟩

instance : EmptyCollection (SortedMap α) := ⟨empty⟩

instance : Inhabited (SortedMap α) := ⟨empty⟩

/-- Bind a key to a value, in place of what it was bound to before. -/
def insert (map : SortedMap α) (key : String) (value : α) : SortedMap α :=
  ⟨insertEntry key value map.entries, insertEntry_ascending key value map.ascending⟩

/-- The value bound to a key, found by walking the entries. -/
def lookup (key : String) : List (String × α) → Option α
  | [] => none
  | entry :: later => if key = entry.1 then some entry.2 else lookup key later

/-- The value bound to a key. -/
def get? (map : SortedMap α) (key : String) : Option α := lookup key map.entries

/-- The keys in ascending order. -/
def keys (map : SortedMap α) : List String := map.entries.map Prod.fst

/-- The map with the given bindings; of several bindings of one key the last counts. -/
def ofList (bindings : List (String × α)) : SortedMap α :=
  bindings.foldl (fun map binding => map.insert binding.1 binding.2) empty

/-- Maps with the same entries are equal. -/
theorem ext_entries {left right : SortedMap α} (same : left.entries = right.entries) :
    left = right := by
  cases left
  cases right
  simpa using same

/-- Nothing is bound in the map without entries. -/
@[simp] theorem get?_empty (key : String) : (empty : SortedMap α).get? key = none := rfl

/-- The key just bound has its new value. -/
theorem lookup_insertEntry_self (key : String) (value : α) (entries : List (String × α)) :
    lookup key (insertEntry key value entries) = some value := by
  induction entries with
  | nil => simp [insertEntry, lookup]
  | cons head later hypothesis =>
      rw [insertEntry]
      split
      · simp [lookup]
      · split
        · simp [lookup]
        · rename_i different
          simp [lookup, different, hypothesis]

/-- Every other key keeps its value. -/
theorem lookup_insertEntry_other {key other : String} (value : α) (different : other ≠ key)
    (entries : List (String × α)) :
    lookup other (insertEntry key value entries) = lookup other entries := by
  induction entries with
  | nil => simp [insertEntry, lookup, different]
  | cons head later hypothesis =>
      rw [insertEntry]
      split
      · simp [lookup, different]
      · split
        · rename_i same
          simp [lookup, different, ← same]
        · simp [lookup, hypothesis]

/-- Reading after binding: the bound key has the new value and the others keep theirs. -/
theorem get?_insert (map : SortedMap α) (key other : String) (value : α) :
    (map.insert key value).get? other = if other = key then some value else map.get? other := by
  by_cases same : other = key
  · subst same
    simp [get?, insert, lookup_insertEntry_self]
  · simp [get?, insert, same, lookup_insertEntry_other value same]

end SortedMap

end MetricQuery
