import Mathlib.Data.List.Nodup
import MetricQuery.Saved

/-!
# Collections of saved queries

A saved query is known by two keys: its text and its number. Adding one compares
the text first. If it is new, the number is kept where it is free, and otherwise
replaced by the one after the largest number, which is free because it is larger
than all others. So both keys stay distinct, however numbers came into the
collection.

Adding fails only where a taken number meets the largest one there is. Adding
several queries keeps the first one of each text that is new, in their order, and
changes nothing in them but the number of those that would clash.
-/

namespace MetricQuery

section DistinctKeys

variable {α κ : Type} {key : α → κ} {item : α} {items later : List α}

/-- Keys stay distinct when an item with a new key is put at the end. -/
theorem nodup_map_concat (distinct : (items.map key).Nodup) (new : key item ∉ items.map key) :
    ((items ++ [item]).map key).Nodup := by
  rw [List.map_append, List.map_singleton, ← List.concat_eq_append]
  exact distinct.concat new

/-- Where keys are distinct, an item in the middle has another key than all before it. -/
theorem not_mem_of_nodup_map (distinct : ((items ++ item :: later).map key).Nodup) :
    key item ∉ items.map key := by
  rw [List.map_append, List.map_cons, List.nodup_middle] at distinct
  exact fun member => (List.nodup_cons.mp distinct).1 (List.mem_append_left _ member)

end DistinctKeys

namespace SavedQueries

variable {saved : SavedQueries} {record : SavedQuery}

/-- Whether no two queries of a collection have the same text, or the same number. -/
structure IsDistinct (saved : SavedQueries) : Prop where
  /-- Texts are distinct. -/
  queries : (saved.records.map SavedQuery.query).Nodup
  /-- Numbers are distinct. -/
  ids : (saved.records.map SavedQuery.id).Nodup

/-- Whether a query can be added or need not be: its text is known, its number is
free, or there is a number after the largest one in the collection. -/
def HasRoom (saved : SavedQueries) (record : SavedQuery) : Prop :=
  record.query ∈ saved.records.map SavedQuery.query ∨
    record.id ∉ saved.records.map SavedQuery.id ∨ ∀ other ∈ saved.records, other.id < largestId

instance (saved : SavedQueries) (record : SavedQuery) : Decidable (saved.HasRoom record) :=
  inferInstanceAs (Decidable (_ ∨ _ ∨ _))

/-- The empty collection has no two queries. -/
theorem isDistinct_empty : IsDistinct {} := ⟨.nil, .nil⟩

/-- A text is held if a query of the collection has it. -/
theorem holdsText_iff (query : String) :
    saved.holdsText query = true ↔ query ∈ saved.records.map SavedQuery.query := by
  simp [holdsText, List.any_eq_true]

/-- A query is found by a number if one has it. -/
theorem get?_isSome_iff (id : Int) :
    (saved.get? id).isSome = true ↔ id ∈ saved.records.map SavedQuery.id := by
  simp [get?, List.find?_isSome]

/-- The largest number is no smaller than any other, and it is the given one or that of a query. -/
theorem largestFrom_spec (least : Int) (records : List SavedQuery) :
    (least ≤ largestFrom least records ∧ ∀ record ∈ records, record.id ≤ largestFrom least records) ∧
      (largestFrom least records = least ∨ largestFrom least records ∈ records.map SavedQuery.id) := by
  induction records generalizing least with
  | nil => simp [largestFrom]
  | cons record later inductionHypothesis =>
    obtain ⟨⟨start, others⟩, reached⟩ := inductionHypothesis (max least record.id)
    have step : largestFrom least (record :: later) = largestFrom (max least record.id) later := rfl
    rw [step]
    refine ⟨⟨Int.le_trans (Int.le_max_left _ _) start, ?_⟩, ?_⟩
    · intro other member
      rcases List.mem_cons.mp member with rfl | behind
      · exact Int.le_trans (Int.le_max_right _ _) start
      · exact others other behind
    · rcases reached with here | behind
      · have either : max least record.id = least ∨ max least record.id = record.id := by omega
        rcases either with before | own
        · exact .inl (here.trans before)
        · exact .inr (by simp [here.trans own])
      · exact .inr (List.mem_cons_of_mem _ behind)

/-- The number after the largest one of a collection with queries is larger than
all others. There is one unless the largest one there is has been reached. -/
theorem nextId?_spec (some : saved.records ≠ []) :
    ∃ largest ∈ saved.records.map SavedQuery.id, (∀ other ∈ saved.records, other.id ≤ largest) ∧
      saved.nextId? = if largest < largestId then .some (largest + 1) else none := by
  obtain ⟨records⟩ := saved
  cases records with
  | nil => exact absurd rfl some
  | cons first later =>
    obtain ⟨⟨start, others⟩, reached⟩ := largestFrom_spec first.id later
    refine ⟨largestFrom first.id later, ?_, List.forall_mem_cons.mpr ⟨start, others⟩, rfl⟩
    rcases reached with here | behind
    · simp [here]
    · exact List.mem_cons_of_mem _ behind

/-- A number that is given is free. It is the own one if that is free, and otherwise larger. -/
theorem freeId?_eq_some {id free : Int} (given : saved.freeId? id = some free) :
    free ∉ saved.records.map SavedQuery.id ∧
      (free = id ↔ id ∉ saved.records.map SavedQuery.id) ∧
        (free = id ∨ id < free ∧ free ≤ largestId) := by
  rw [freeId?] at given
  split at given
  · rename_i present
    have taken := (get?_isSome_iff id).mp present
    obtain ⟨owner, member, rfl⟩ := List.mem_map.mp taken
    obtain ⟨largest, _, others, next⟩ := nextId?_spec (List.ne_nil_of_mem member)
    have least := others owner member
    rw [next] at given
    split at given
    · rename_i below
      obtain rfl := Option.some.inj given
      refine ⟨?_, ?_, .inr ⟨by omega, by omega⟩⟩
      · intro held
        obtain ⟨other, owned, equal⟩ := List.mem_map.mp held
        have most := others other owned
        omega
      · exact ⟨fun same => by omega, fun free => absurd taken free⟩
    · cases given
  · rename_i absent
    obtain rfl := Option.some.inj given
    have isFree : id ∉ saved.records.map SavedQuery.id :=
      fun taken => absent ((get?_isSome_iff id).mpr taken)
    exact ⟨isFree, iff_of_true rfl isFree, .inl rfl⟩

/-- A number is given where there is room: the own one if it is free, and otherwise a free one. -/
theorem freeId?_spec (id : Int) (room : id ∉ saved.records.map SavedQuery.id ∨
      ∀ other ∈ saved.records, other.id < largestId) :
    ∃ free ∉ saved.records.map SavedQuery.id, saved.freeId? id = some free ∧
      (id ∉ saved.records.map SavedQuery.id → free = id) := by
  have given : ∃ free, saved.freeId? id = some free := by
    by_cases taken : id ∈ saved.records.map SavedQuery.id
    · obtain ⟨owner, owns, _⟩ := List.mem_map.mp taken
      obtain ⟨largest, member, _, next⟩ := nextId?_spec (List.ne_nil_of_mem owns)
      obtain ⟨holder, held, rfl⟩ := List.mem_map.mp member
      have below : holder.id < largestId := room.resolve_left (not_not.mpr taken) holder held
      exact ⟨_, by rw [freeId?, (get?_isSome_iff id).mpr taken, if_pos rfl, next, if_pos below]⟩
    · have absent : (saved.get? id).isSome = false :=
        Bool.eq_false_iff.mpr fun present => taken ((get?_isSome_iff id).mp present)
      exact ⟨id, by rw [freeId?, absent, if_neg Bool.false_ne_true]⟩
  obtain ⟨free, some⟩ := given
  obtain ⟨isFree, own, _⟩ := freeId?_eq_some some
  exact ⟨free, isFree, some, own.mpr⟩

/-- A query with a known text is not added. -/
theorem save_known (known : record.query ∈ saved.records.map SavedQuery.query) :
    saved.save record = .known := by
  rw [save, (holdsText_iff _).mpr known, if_pos rfl]

/-- A query with a new text is added at the end where there is room, under a free
number, which is its own if that is free. -/
theorem save_new (unknown : record.query ∉ saved.records.map SavedQuery.query)
    (room : saved.HasRoom record) :
    ∃ free ∉ saved.records.map SavedQuery.id,
      (record.id ∉ saved.records.map SavedQuery.id → free = record.id) ∧
        saved.save record = .added ⟨saved.records ++ [{ record with id := free }]⟩ := by
  obtain ⟨free, isFree, given, own⟩ := freeId?_spec record.id (room.resolve_left unknown)
  have notHeld : saved.holdsText record.query = false :=
    Bool.eq_false_iff.mpr fun held => unknown ((holdsText_iff _).mp held)
  refine ⟨free, isFree, own, ?_⟩
  rw [save, notHeld, if_neg Bool.false_ne_true, given]

/-- A query that is added has a new text and is put at the end under a number that is given to it. -/
theorem save_eq_added {more : SavedQueries} (added : saved.save record = .added more) :
    record.query ∉ saved.records.map SavedQuery.query ∧
      ∃ free, saved.freeId? record.id = some free ∧
        more = ⟨saved.records ++ [{ record with id := free }]⟩ := by
  rw [save] at added
  split at added
  · cases added
  · rename_i notHeld
    split at added
    · rename_i free given
      exact ⟨fun known => notHeld ((holdsText_iff _).mpr known), free, given,
        (SaveOutcome.added.inj added).symm⟩
    · cases added

/-- Adding fails exactly where there is no room. -/
theorem save_eq_exhausted_iff : saved.save record = .exhausted ↔ ¬ saved.HasRoom record := by
  constructor
  · intro failed room
    by_cases known : record.query ∈ saved.records.map SavedQuery.query
    · simp [save_known known] at failed
    · obtain ⟨free, _, _, added⟩ := save_new known room
      simp [added] at failed
  · intro full
    simp only [HasRoom, not_or, not_not] at full
    obtain ⟨unknown, taken, reached⟩ := full
    have some : saved.records ≠ [] := by
      rintro none
      simp [none] at taken
    obtain ⟨largest, _, others, next⟩ := nextId?_spec some
    have atEnd : ¬ largest < largestId :=
      fun below => reached fun other member => Int.lt_of_le_of_lt (others other member) below
    have notHeld : saved.holdsText record.query = false :=
      Bool.eq_false_iff.mpr fun held => unknown ((holdsText_iff _).mp held)
    rw [save, notHeld, if_neg Bool.false_ne_true, freeId?, (get?_isSome_iff _).mpr taken,
      if_pos rfl, next, if_neg atEnd]

/-- A collection stays distinct when a query with a new text and a free number is put at its end. -/
theorem IsDistinct.concat (distinct : saved.IsDistinct)
    (unknown : record.query ∉ saved.records.map SavedQuery.query)
    (free : record.id ∉ saved.records.map SavedQuery.id) :
    IsDistinct ⟨saved.records ++ [record]⟩ where
  queries := nodup_map_concat distinct.queries unknown
  ids := nodup_map_concat distinct.ids free

/-- A collection stays distinct when a query is removed. -/
theorem IsDistinct.remove (distinct : saved.IsDistinct) (id : Int) :
    (saved.remove id).IsDistinct where
  queries := distinct.queries.sublist (List.eraseP_sublist.map _)
  ids := distinct.ids.sublist (List.eraseP_sublist.map _)

/-- In a collection with distinct numbers a query is found by its own number only. -/
theorem IsDistinct.get?_eq_some_iff (distinct : saved.IsDistinct) (id : Int) :
    saved.get? id = some record ↔ record ∈ saved.records ∧ record.id = id := by
  constructor
  · intro found
    exact ⟨List.mem_of_find?_eq_some found, by simpa using List.find?_some found⟩
  · rintro ⟨member, rfl⟩
    have isSome := (get?_isSome_iff record.id).mpr (List.mem_map_of_mem member)
    obtain ⟨owner, found⟩ := Option.isSome_iff_exists.mp isSome
    have owns : owner.id = record.id := by simpa using List.find?_some found
    have same : owner = record :=
      List.inj_on_of_nodup_map distinct.ids (List.mem_of_find?_eq_some found) member owns
    rw [found, same]

/-- Among queries with distinct numbers the first one with a number is the only one. -/
theorem eraseP_eq_filter {records : List SavedQuery} (ids : (records.map SavedQuery.id).Nodup)
    (id : Int) :
    (records.eraseP fun record => record.id = id) = records.filter fun record => record.id ≠ id := by
  induction records with
  | nil => rfl
  | cons record later inductionHypothesis =>
    obtain ⟨apart, laterIds⟩ := List.nodup_cons.mp ids
    by_cases here : record.id = id
    · have others : ∀ other ∈ later, other.id ≠ id := by
        rintro other member rfl
        exact apart (here ▸ List.mem_map_of_mem member)
      have whole := List.filter_eq_self.mpr fun other member => decide_eq_true (others other member)
      simp only [here, List.eraseP_cons, List.filter_cons, decide_true, ne_eq, not_true,
        decide_false, cond_true, Bool.false_eq_true, if_false]
      exact whole.symm
    · simp only [here, List.eraseP_cons, List.filter_cons, decide_false, ne_eq, not_false_eq_true,
        decide_true, cond_false, if_true, inductionHypothesis laterIds]

/-- Removing leaves out the query that is found by the number, and no other. -/
theorem IsDistinct.records_remove (distinct : saved.IsDistinct) (id : Int) :
    (saved.remove id).records = saved.records.filter fun record => saved.get? id ≠ some record := by
  rw [SavedQueries.remove, eraseP_eq_filter distinct.ids]
  refine List.filter_congr ?_
  intro record member
  have owns : saved.get? id = some record ↔ record ∈ saved.records ∧ record.id = id :=
    distinct.get?_eq_some_iff id
  simp [owns, member]

/-! ## Several queries -/

/-- The collection after an attempt to add a query. -/
def keep (saved : SavedQueries) (record : SavedQuery) : SavedQueries :=
  match saved.save record with
  | .added more => more
  | .known | .exhausted => saved

/-- Whether there is room for several queries that are added one after the other. -/
def HasRoomForAll : SavedQueries → List SavedQuery → Prop
  | _, [] => True
  | saved, record :: later => saved.HasRoom record ∧ (saved.keep record).HasRoomForAll later

instance : (saved : SavedQueries) → (records : List SavedQuery) →
    Decidable (saved.HasRoomForAll records)
  | _, [] => inferInstanceAs (Decidable True)
  | saved, record :: later =>
      have : Decidable ((saved.keep record).HasRoomForAll later) := instDecidableHasRoomForAll _ _
      inferInstanceAs (Decidable (_ ∧ _))

/-- Whether a query is another one up to its number. -/
def IsRenumbered (kept record : SavedQuery) : Prop := kept = { record with id := kept.id }

/-- The first query of each text. -/
def firstOfEachText (records : List SavedQuery) : List SavedQuery :=
  records.eraseDupsBy fun one other => one.query == other.query

/-- The queries whose text is not in a collection. -/
def newTo (saved : SavedQueries) (records : List SavedQuery) : List SavedQuery :=
  records.filter fun record => record.query ∉ saved.records.map SavedQuery.query

/-- Behind a new query the first ones are those that are new to the collection with it. -/
theorem firstOfEachText_newTo_cons (unknown : record.query ∉ saved.records.map SavedQuery.query)
    (id : Int) (later : List SavedQuery) :
    firstOfEachText (saved.newTo (record :: later)) =
      record :: firstOfEachText (newTo ⟨saved.records ++ [{ record with id := id }]⟩ later) := by
  rw [newTo, List.filter_cons_of_pos (by simpa using unknown), firstOfEachText,
    List.eraseDupsBy_cons, List.filter_filter, newTo, firstOfEachText]
  refine congrArg (record :: List.eraseDupsBy _ ·) (List.filter_congr ?_)
  intro other _
  have member : other.query ∈ (saved.records ++ [{ record with id := id }]).map SavedQuery.query ↔
      other.query ∈ saved.records.map SavedQuery.query ∨ other.query = record.query := by
    rw [List.map_append, List.mem_append, List.map_singleton, List.mem_singleton]
  rw [Bool.eq_iff_iff]
  simp only [Bool.and_eq_true, beq_eq_false_iff_ne, decide_eq_true_eq, member,
    not_or, ne_comm, and_comm, ne_eq]

/-- Where there is room, adding several queries gives a distinct collection. It adds
the first one of each new text in order, each one up to its number, and without any
change if no number would clash. -/
theorem saveAll_spec {records : List SavedQuery} (distinct : saved.IsDistinct)
    (room : saved.HasRoomForAll records) :
    ∃ added, saved.saveAll records = some ⟨saved.records ++ added⟩ ∧
      IsDistinct ⟨saved.records ++ added⟩ ∧
        List.Forall₂ IsRenumbered added (firstOfEachText (saved.newTo records)) ∧
          (((saved.records ++ firstOfEachText (saved.newTo records)).map SavedQuery.id).Nodup →
            added = firstOfEachText (saved.newTo records)) := by
  -- The collection grows along the list, and with it the texts that are no longer new.
  induction records generalizing saved with
  | nil => exact ⟨[], by simp [saveAll], by simpa using distinct, .nil, fun _ => rfl⟩
  | cons record later inductionHypothesis =>
    obtain ⟨here, behind⟩ := room
    by_cases known : record.query ∈ saved.records.map SavedQuery.query
    · have kept : saved.keep record = saved := by rw [keep, save_known known]
      have others : saved.newTo (record :: later) = saved.newTo later :=
        List.filter_cons_of_neg (by simpa using known)
      rw [saveAll, save_known known, others]
      exact inductionHypothesis distinct (kept ▸ behind)
    · obtain ⟨free, isFree, own, saves⟩ := save_new known here
      have kept : saved.keep record = ⟨saved.records ++ [{ record with id := free }]⟩ := by
        rw [keep, saves]
      have more : IsDistinct ⟨saved.records ++ [{ record with id := free }]⟩ :=
        distinct.concat known isFree
      obtain ⟨added, given, result, renumbered, unchanged⟩ :=
        inductionHypothesis more (kept ▸ behind)
      refine ⟨{ record with id := free } :: added, ?_, ?_, ?_, ?_⟩
      · rw [saveAll, saves]
        simpa using given
      · simpa using result
      · rw [firstOfEachText_newTo_cons known free]
        exact .cons rfl renumbered
      · rw [firstOfEachText_newTo_cons known free]
        intro ids
        have untaken : record.id ∉ saved.records.map SavedQuery.id := not_mem_of_nodup_map ids
        obtain rfl : free = record.id := own untaken
        rw [unchanged (by simpa using ids)]

/-- Queries that clash neither with a collection nor with each other are added as they are. -/
theorem saveAll_distinct {records : List SavedQuery}
    (distinct : IsDistinct ⟨saved.records ++ records⟩) :
    saved.saveAll records = some ⟨saved.records ++ records⟩ := by
  induction records generalizing saved with
  | nil => simp [saveAll]
  | cons record later inductionHypothesis =>
    have unknown : record.query ∉ saved.records.map SavedQuery.query :=
      not_mem_of_nodup_map distinct.queries
    have untaken : record.id ∉ saved.records.map SavedQuery.id := not_mem_of_nodup_map distinct.ids
    obtain ⟨free, _, own, saves⟩ := save_new unknown (.inr (.inl untaken))
    obtain rfl : free = record.id := own untaken
    rw [saveAll, saves]
    have rest : IsDistinct ⟨(saved.records ++ [record]) ++ later⟩ := by simpa using distinct
    simpa using inductionHypothesis rest

end SavedQueries

end MetricQuery
