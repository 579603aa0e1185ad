import MetricQuery.SortedMap

/-!
# Maps and their bindings

A map with sorted keys is determined by what is bound to each key: no order of
insertion and no key that was bound before leaves a trace in its entries. The
restriction of a map to some keys keeps its bindings there and has no others.

The entries of a map are in the order of its keys, so a map is built from them by
putting each one behind those before it.
-/

namespace MetricQuery.SortedMap

variable {α : Type}

/-- A key before all keys of a list is not bound in it. -/
theorem lookup_eq_none {key : String} {entries : List (String × α)}
    (before : ∀ entry ∈ entries, key < entry.1) : lookup key entries = none := by
  induction entries with
  | nil => rfl
  | cons entry later inductionHypothesis =>
    have apart : key ≠ entry.1 := by
      intro same
      exact String.lt_irrefl key (same ▸ before entry List.mem_cons_self)
    rw [lookup, if_neg apart]
    exact inductionHypothesis fun other member => before other (List.mem_cons_of_mem _ member)

/-- A bound key is not before all keys of a list. -/
theorem not_lt_of_lookup {key : String} {value : α} {entry : String × α}
    {later : List (String × α)} (first : ∀ other ∈ later, entry.1 < other.1)
    (bound : lookup key (entry :: later) = some value) : ¬ key < entry.1 := by
  intro before
  have none : lookup key (entry :: later) = none := by
    refine lookup_eq_none ?_
    intro other member
    rcases List.mem_cons.mp member with rfl | behind
    · exact before
    · exact String.lt_trans before (first other behind)
  rw [none] at bound
  exact absurd bound (by simp)

/-- Ascending lists with the same bindings are equal. -/
theorem eq_of_lookup {left right : List (String × α)}
    (leftAscending : left.Pairwise fun earlier later => earlier.1 < later.1)
    (rightAscending : right.Pairwise fun earlier later => earlier.1 < later.1)
    (same : ∀ key, lookup key left = lookup key right) : left = right := by
  induction left generalizing right with
  | nil =>
    cases right with
    | nil => rfl
    | cons entry later =>
      have here := same entry.1
      simp [lookup] at here
  | cons leftEntry leftLater inductionHypothesis =>
    cases right with
    | nil =>
      have here := same leftEntry.1
      simp [lookup] at here
    | cons rightEntry rightLater =>
      obtain ⟨leftFirst, leftTail⟩ := List.pairwise_cons.mp leftAscending
      obtain ⟨rightFirst, rightTail⟩ := List.pairwise_cons.mp rightAscending
      have leftBound : lookup leftEntry.1 (leftEntry :: leftLater) = some leftEntry.2 := by
        simp [lookup]
      have rightBound : lookup rightEntry.1 (rightEntry :: rightLater) = some rightEntry.2 := by
        simp [lookup]
      have keys : leftEntry.1 = rightEntry.1 := by
        have notBefore := not_lt_of_lookup rightFirst ((same _).symm.trans leftBound)
        have notBehind := not_lt_of_lookup leftFirst ((same _).trans rightBound)
        exact String.le_antisymm (String.not_lt.mp notBehind) (String.not_lt.mp notBefore)
      have values : leftEntry.2 = rightEntry.2 := by
        rw [keys, same, rightBound] at leftBound
        exact (Option.some.inj leftBound).symm
      have tails : ∀ key, lookup key leftLater = lookup key rightLater := by
        intro key
        by_cases here : key = leftEntry.1
        · subst here
          rw [lookup_eq_none leftFirst, lookup_eq_none (keys ▸ rightFirst)]
        · have whole := same key
          rwa [lookup, lookup, if_neg here, if_neg (keys ▸ here)] at whole
      rw [inductionHypothesis leftTail rightTail tails, Prod.ext keys values]

/-- The keys of a map are ascending. -/
theorem keys_ascending (map : SortedMap α) : map.keys.Pairwise (· < ·) :=
  List.pairwise_map.mpr map.ascending

/-- No key occurs twice. -/
theorem keys_nodup (map : SortedMap α) : map.keys.Nodup :=
  map.keys_ascending.imp String.ne_of_lt

/-- The keys of a map are those that are bound. -/
theorem mem_keys {map : SortedMap α} {key : String} :
    key ∈ map.keys ↔ (map.get? key).isSome := by
  suffices walk : ∀ entries : List (String × α),
      key ∈ entries.map Prod.fst ↔ (lookup key entries).isSome from walk map.entries
  intro entries
  induction entries with
  | nil => simp [lookup]
  | cons entry later inductionHypothesis =>
    by_cases same : key = entry.1
    · simp [lookup, same]
    · simpa [lookup, same] using inductionHypothesis

/-- Binding a key adds it to the keys. -/
theorem mem_keys_insert {map : SortedMap α} {key other : String} {value : α} :
    other ∈ (map.insert key value).keys ↔ other = key ∨ other ∈ map.keys := by
  rw [mem_keys, mem_keys, get?_insert]
  by_cases same : other = key <;> simp [same]

/-- Maps with the same bindings are equal. -/
theorem ext_get? {left right : SortedMap α} (same : ∀ key, left.get? key = right.get? key) :
    left = right :=
  ext_entries (eq_of_lookup left.ascending right.ascending same)

/-- The bindings of a map at some keys. -/
def restrict (keys : List String) (map : SortedMap α) : SortedMap α :=
  ⟨map.entries.filter fun entry => entry.1 ∈ keys, map.ascending.filter _⟩

/-- A restricted map has the bindings of the map at the keys and no others. -/
theorem get?_restrict (keys : List String) (map : SortedMap α) (key : String) :
    (map.restrict keys).get? key = if key ∈ keys then map.get? key else none := by
  suffices walk : ∀ entries : List (String × α),
      lookup key (entries.filter fun entry => entry.1 ∈ keys) =
        if key ∈ keys then lookup key entries else none from walk map.entries
  intro entries
  induction entries with
  | nil => simp [lookup]
  | cons entry later inductionHypothesis =>
    by_cases same : key = entry.1
    · subst same
      by_cases listed : entry.1 ∈ keys
      · simp [lookup, listed]
      · simpa [listed] using inductionHypothesis
    · by_cases listed : entry.1 ∈ keys
      · simpa [lookup, listed, same] using inductionHypothesis
      · simpa [lookup, listed, same] using inductionHypothesis

/-- A key behind all others is put behind them. -/
theorem insertEntry_last {key : String} (value : α) {entries : List (String × α)}
    (behind : ∀ entry ∈ entries, entry.1 < key) :
    insertEntry key value entries = entries ++ [(key, value)] := by
  induction entries with
  | nil => rfl
  | cons entry later inductionHypothesis =>
    obtain ⟨here, rest⟩ := List.forall_mem_cons.mp behind
    have notBefore : ¬ key < entry.1 := String.lt_asymm here
    have apart : key ≠ entry.1 := by
      intro same
      exact String.lt_irrefl key (same ▸ here)
    rw [insertEntry, if_neg notBefore, if_neg apart, inductionHypothesis rest]
    rfl

/-- The map with a function applied to every value. -/
def mapValues {β : Type} (change : α → β) (map : SortedMap α) : SortedMap β :=
  ⟨map.entries.map fun entry => (entry.1, change entry.2),
    List.pairwise_map.mpr map.ascending⟩

/-- A map whose values all stay as they are stays as it is. -/
theorem mapValues_eq_self {change : α → α} {map : SortedMap α}
    (stays : ∀ entry ∈ map.entries, change entry.2 = entry.2) : map.mapValues change = map := by
  refine ext_entries ?_
  calc map.entries.map (fun entry => (entry.1, change entry.2))
      = map.entries.map id := List.map_congr_left fun entry member => by rw [stays entry member]; rfl
    _ = map.entries := List.map_id _

end MetricQuery.SortedMap
