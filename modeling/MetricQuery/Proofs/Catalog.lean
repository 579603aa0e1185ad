import Mathlib.Data.List.Induction
import MetricQuery.Catalog.Loading
import MetricQuery.Proofs.Text.Ascii

/-!
# Two ways to look up a table

A catalog finds a table by its name without regard to the case of ASCII letters, and the
first one counts. A query finds the rows of a table by its name in lower case, and the
last one counts. Both choose among the namesakes of a name, the tables whose name is
equal to it in lower case: the first of those that are the same name, and the last one
of all.

So the two agree where a name has at most one namesake and its capitals are all ASCII.
Neither condition can be left out: a name outside ASCII is found in one way only, and of
two namesakes one gives the fields and the other one the rows.
-/

namespace MetricQuery

/-- The rows that were stored last are found by the name of their table, and by every other
name what was found before. -/
theorem Dataset.rows?_insert (dataset : Dataset) (name other : String) (rows : List Row) :
    (dataset.insert name rows).rows? other =
      if Text.lowered other = Text.lowered name then some rows else dataset.rows? other :=
  SortedMap.get?_insert _ _ _ _

namespace Catalog

/-- The tables whose name is equal to a name in lower case. -/
def namesakes (catalog : Catalog) (name : String) : List Table :=
  catalog.tables.filter fun table => Text.lowered table.name = Text.lowered name

/-- The catalog finds the first namesake that is the same name. -/
theorem table?_eq_find? (catalog : Catalog) (name : String) :
    catalog.table? name =
      (catalog.namesakes name).find? fun table => Text.sameName table.name name := by
  rw [namesakes, List.find?_filter, table?]
  refine congrArg (List.find? · catalog.tables) ?_
  funext table
  cases same : Text.sameName table.name name with
  | true => simp [Text.lowered_eq_of_sameName same]
  | false => simp

/-- A query finds the rows of the last namesake. -/
theorem rows?_eq_getLast? (catalog : Catalog) (name : String) :
    catalog.dataset.rows? name = (catalog.namesakes name).getLast?.map Table.rows := by
  obtain ⟨tables, functions, aliases, settings⟩ := catalog
  rw [dataset, namesakes]
  -- The rows of the last table are stored last, in place of those of its namesakes.
  induction tables using List.reverseRecOn with
  | nil => rfl
  | append_singleton earlier table inductionHypothesis =>
    have stored : Dataset.ofList ((earlier ++ [table]).map fun table => (table.name, table.rows)) =
        (Dataset.ofList (earlier.map fun table => (table.name, table.rows))).insert
          table.name table.rows := by
      simp [Dataset.ofList]
    rw [stored, Dataset.rows?_insert, List.filter_append]
    by_cases same : Text.lowered name = Text.lowered table.name
    · simp [same]
    · have other : ¬ Text.lowered table.name = Text.lowered name := fun equal => same equal.symm
      rw [if_neg same]
      simpa [other] using inductionHypothesis

/-- Equal names in lower case have the same namesakes. -/
theorem namesakes_lowered (catalog : Catalog) (name : String) :
    catalog.namesakes (Text.lowered name) = catalog.namesakes name := by
  rw [namesakes, namesakes, Text.lowered_lowered]

/-- The two ways to look up a table agree on every name that has at most one namesake, if
the capitals in the names are all ASCII. A table that is found by a name gives its rows to
queries under that name, and it is found by the name in lower case too. Rows that are found
by a name are those of the table that is found by it. -/
theorem lookups_agree (catalog : Catalog) (name : String)
    (single : (catalog.namesakes name).length ≤ 1)
    (plain : ∀ table ∈ catalog.namesakes name, Text.IsPlain table.name) :
    (∀ table, catalog.table? name = some table →
      catalog.dataset.rows? name = some table.rows ∧
        catalog.table? (Text.lowered name) = some table) ∧
    (Text.IsPlain name → catalog.dataset.rows? name = (catalog.table? name).map Table.rows) := by
  rw [rows?_eq_getLast?, table?_eq_find?, table?_eq_find?, namesakes_lowered]
  cases alone : catalog.namesakes name with
  | nil => exact ⟨nofun, fun _ => rfl⟩
  | cons table later =>
    have last : later = [] := by
      rw [alone, List.length_cons] at single
      exact List.eq_nil_of_length_eq_zero (by omega)
    have member : table ∈ catalog.namesakes name := alone ▸ List.mem_cons_self
    have equal : Text.lowered table.name = Text.lowered name :=
      of_decide_eq_true (List.mem_filter.mp member).2
    have tablePlain : Text.IsPlain table.name := plain table member
    have byLower : Text.sameName table.name (Text.lowered name) = true :=
      equal ▸ tablePlain.sameName_lowered
    subst last
    constructor
    · intro found first
      obtain rfl : found = table := List.mem_singleton.mp (List.mem_of_find?_eq_some first)
      exact ⟨rfl, List.find?_cons_of_pos byLower⟩
    · intro namePlain
      have here : Text.sameName table.name name = true :=
        tablePlain.sameName_of_lowered_eq namePlain equal
      have first : [table].find? (fun table => Text.sameName table.name name) = some table :=
        List.find?_cons_of_pos here
      rw [first]
      rfl

/-- A name with a small letter outside ASCII is found in any case of its other letters,
next to two tables of one name. -/
theorem lookups_agree_on_size :
    let table : String → List Row → Table := fun name rows => ⟨name, "", [], [], rows⟩
    let catalog : Catalog :=
      ⟨[table "t" [], table "Größe" [.empty], table "T" [.empty, .empty]], [], .empty, {}⟩
    (catalog.namesakes "GRößE").length ≤ 1 ∧
      (∀ table ∈ catalog.namesakes "GRößE", Text.IsPlain table.name) ∧
      Text.IsPlain "GRößE" ∧
      catalog.dataset.rows? "GRößE" = some [.empty] ∧
      catalog.table? (Text.lowered "GRößE") = some (table "Größe" [.empty]) := by
  intro table catalog
  have single : (catalog.namesakes "GRößE").length ≤ 1 := by decide +kernel
  have plain : ∀ table ∈ catalog.namesakes "GRößE", Text.IsPlain table.name := by decide +kernel
  have namePlain : Text.IsPlain "GRößE" := by decide +kernel
  have found : catalog.table? "GRößE" = some (table "Größe" [.empty]) := by decide +kernel
  obtain ⟨forward, both⟩ := lookups_agree catalog "GRößE" single plain
  refine ⟨single, plain, namePlain, ?_, ?_⟩
  · rw [both namePlain, found]
    rfl
  · exact (forward _ found).2

/-- A catalog that is read from its text has a table with a capital outside ASCII: under
its name in lower case the rows are found and the table is not. Another one has two tables
of one name: the first gives the table, and the last gives the rows. -/
theorem lookups_differ :
    let foreign : Catalog := ⟨[⟨"É", "E", [], [], []⟩], usualFunctions, .empty, {}⟩
    let doubled : Catalog :=
      ⟨[⟨"t", "first", [], [], [.empty]⟩, ⟨"T", "second", [], [], []⟩], usualFunctions, .empty, {}⟩
    (parse "\x7b\"tables\":[\x7b\"name\":\"É\",\"label\":\"E\"\x7d]\x7d" = .ok foreign ∧
      (foreign.table? "É").map Table.label = some "E" ∧ foreign.table? (Text.lowered "É") = none ∧
      foreign.dataset.rows? (Text.lowered "É") = some []) ∧
    (parse ("\x7b\"tables\":[\x7b\"name\":\"t\",\"label\":\"first\",\"rows\":[\x7b\x7d]\x7d," ++
        "\x7b\"name\":\"T\",\"label\":\"second\"\x7d]\x7d") = .ok doubled ∧
      (doubled.table? "t").map Table.rows = some [.empty] ∧
      doubled.dataset.rows? "t" = some []) := by
  intro foreign doubled
  refine ⟨⟨?_, ?_, ?_, ?_⟩, ?_, ?_, ?_⟩
  all_goals decide +kernel

end Catalog

end MetricQuery
