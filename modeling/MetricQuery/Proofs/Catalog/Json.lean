import MetricQuery.Catalog.Loading
import MetricQuery.Proofs.Cell.Json
import MetricQuery.Proofs.Selection.Json
import MetricQuery.Proofs.Text.Ascii

/-!
# Written catalogs are read again

A catalog is an object of tables, functions, field names and settings. All strings in it
are read back for all of their characters, and the members that may be left out are always
written. So nothing of a catalog is lost but what is lost of its numbers: the catalog that
is read is the one that was written, with every number as its own text is read.

The main statement adds when this is the same catalog: when the significand and the power
of ten that are read for each number need no rounding. Without that a catalog may be read as
another one, as a number of sixteen digits shows.
-/

namespace MetricQuery

open Json (ReadsBack SplitsInto Reads)

/-! ## Functions and settings -/

namespace AggregateFunction

/-- The name of a function that was found by a name is that name in small letters. -/
theorem name_ofName (name : String) : (ofName name).name = Text.smallAscii name := by
  simp only [ofName]
  split_ifs with sum count average minimum maximum
  · exact sum.symm
  · exact count.symm
  · exact average.symm
  · exact minimum.symm
  · exact maximum.symm
  · rfl

/-- A function that was found by a name is found by its own name in capitals. -/
theorem ofName_shown_ofName (name : String) : ofName (ofName name).shown = ofName name := by
  have small : Text.smallAscii (ofName name).shown = Text.smallAscii name := by
    rw [shown, Text.smallAscii_capitalAscii, name_ofName, Text.smallAscii_smallAscii]
  rw [ofName, small]
  rfl

/-- A function that was found by a name is read back. -/
theorem reads_toJson (depth : Nat) {function : AggregateFunction}
    (named : ∃ name, function = ofName name) :
    Reads AggregateFunction.reader depth function.toJson function := by
  intro rest
  obtain ⟨name, rfl⟩ := named
  have read := Json.reads_string depth (ofName name).shown rest
  simp only [toJson, reader, read, bind, Except.bind, ofName_shown_ofName]

end AggregateFunction

/-- A counting policy is read back from its name. -/
theorem CountSeed.reads_toJson (depth : Nat) (seed : CountSeed) :
    Reads CountSeed.reader depth seed.toJson seed := by
  refine Json.reads_variant depth ?_
  cases seed <;> rfl

namespace EngineSettings

/-- The words of settings are read back. -/
theorem readsBack_toJson (settings : EngineSettings) : ReadsBack settings.toJson :=
  Json.readsBack_object (List.forall_mem_singleton.mpr
    (Json.readsBack_member _ (Json.readsBack_string _)))

/-- Settings are read back where one more object may be opened. -/
theorem reads_toJson {depth : Nat} (room : 1 < depth) (settings : EngineSettings) :
    Reads EngineSettings.reader depth settings.toJson settings := by
  have seed := (CountSeed.reads_toJson (depth - 1) settings.seed).fill
    fun seed => Draft.mk (some seed)
  have finished : (Draft.mk (some settings.seed)).finish = .ok settings := rfl
  exact Json.reads_record room (.member _ rfl rfl seed (.done _)) finished

end EngineSettings

/-! ## Tables -/

namespace Table

/-- The cells of a table. -/
def cells (table : Table) : List Cell := table.rows.flatMap Row.cells

/-- The table that is read where a table is written. -/
def reread (table : Table) : Table := { table with rows := table.rows.map Row.reread }

/-- A table is split into the words of the table that is read where it is written. -/
theorem splitsInto_toJson {table : Table}
    (finite : ∀ x, .number x ∈ table.cells → isFinite x = true) :
    SplitsInto table.toJson table.reread.toJson := by
  have text : ∀ key value : String,
      SplitsInto (Json.member key (Json.string value)) (Json.member key (Json.string value)) :=
    fun key value => Json.readsBack_member key (Json.readsBack_string value)
  have metrics := Metric.readsBack_list table.metrics
  have dimensions := Dimension.readsBack_list table.dimensions
  have rows : SplitsInto (Json.list (table.rows.map Row.toJson))
      (Json.list ((table.rows.map Row.reread).map Row.toJson)) := by
    refine Json.splitsInto_list_map Row.reread ?_
    intro row member
    exact Row.splitsInto_toJson fun x listed =>
      finite x (List.mem_flatMap.mpr ⟨row, member, listed⟩)
  exact Json.splitsInto_object (.cons (text _ _) (.cons (text _ _)
    (.cons (Json.readsBack_member _ metrics) (.cons (Json.readsBack_member _ dimensions)
      (.cons (Json.splitsInto_member _ rows) .nil)))))

/-- A table is read from its words where an object, a list in it, and an object in that may
be opened. -/
theorem reads_toJson {depth : Nat} (room : 3 < depth) {table : Table}
    (finite : ∀ x, .number x ∈ table.cells → isFinite x = true) :
    Reads Table.reader depth table.toJson table := by
  obtain ⟨name, label, metrics, dimensions, rows⟩ := table
  have inside : 2 < depth - 1 := by omega
  have readsMetrics := Metric.reads_list inside metrics
  have readsDimensions := Dimension.reads_list inside dimensions
  have readsRows : Reads (Json.readList Row.reader) (depth - 1)
      (Json.list (rows.map Row.toJson)) rows := by
    refine Json.reads_list (by omega) ?_ fun row _ => Json.startsValue_object _
    intro row member
    refine Row.reads_toJson (by omega) fun x listed => finite x ?_
    exact List.mem_flatMap.mpr ⟨row, member, listed⟩
  -- The draft behind each member holds what was read up to it.
  have first := (Json.reads_string (depth - 1) name).fill
    fun name => Draft.mk (some name) none none none none
  have second := (Json.reads_string (depth - 1) label).fill
    fun label => Draft.mk (some name) (some label) none none none
  have third := readsMetrics.fill
    fun metrics => Draft.mk (some name) (some label) (some metrics) none none
  have fourth := readsDimensions.fill
    fun dimensions => Draft.mk (some name) (some label) (some metrics) (some dimensions) none
  have fifth := readsRows.fill fun rows =>
    Draft.mk (some name) (some label) (some metrics) (some dimensions) (some rows)
  let last : Draft := ⟨some name, some label, some metrics, some dimensions, some rows⟩
  have finished : last.finish = .ok ⟨name, label, metrics, dimensions, rows⟩ := rfl
  refine Json.reads_record (by omega) ?_ finished
  exact .member _ rfl rfl first (.member _ rfl rfl second (.member _ rfl rfl third
    (.member _ rfl rfl fourth (.member _ rfl rfl fifth (.done last)))))

/-- A table that is read where a table is written holds no number that is not finite. -/
theorem isFinite_of_reread {table : Table}
    (finite : ∀ x, .number x ∈ table.cells → isFinite x = true) :
    ∀ x, .number x ∈ table.reread.cells → isFinite x = true := by
  intro x listed
  obtain ⟨_, listedRow, here⟩ := List.mem_flatMap.mp listed
  obtain ⟨row, member, rfl⟩ := List.mem_map.mp listedRow
  exact Row.isFinite_of_reread
    (fun y inRow => finite y (List.mem_flatMap.mpr ⟨row, member, inRow⟩)) x here

/-- A table whose numbers have short texts is read as itself. -/
theorem reread_eq_self {table : Table}
    (short : ∀ x, .number x ∈ table.cells → Json.hasShortText x = true) :
    table.reread = table := by
  have rows : table.rows.map Row.reread = table.rows := by
    refine (List.map_congr_left ?_).trans (List.map_id _)
    intro row member
    exact Row.reread_eq_self fun x listed =>
      short x (List.mem_flatMap.mpr ⟨row, member, listed⟩)
  rw [reread, rows]

end Table

/-! ## Catalogs -/

namespace Catalog

/-- The cells of a catalog. -/
def cells (catalog : Catalog) : List Cell := catalog.tables.flatMap Table.cells

/-- The catalog that is read where a catalog is written. -/
def reread (catalog : Catalog) : Catalog :=
  { catalog with tables := catalog.tables.map Table.reread }

/-- A catalog is split into the words of the catalog that is read where it is written. -/
theorem splitsInto_toJson {catalog : Catalog}
    (finite : ∀ x, .number x ∈ catalog.cells → isFinite x = true) :
    SplitsInto catalog.toJson catalog.reread.toJson := by
  have tables : SplitsInto (Json.list (catalog.tables.map Table.toJson))
      (Json.list ((catalog.tables.map Table.reread).map Table.toJson)) := by
    refine Json.splitsInto_list_map Table.reread ?_
    intro table member
    exact Table.splitsInto_toJson fun x listed =>
      finite x (List.mem_flatMap.mpr ⟨table, member, listed⟩)
  have functions : ReadsBack (Json.list (catalog.functions.map AggregateFunction.toJson)) :=
    Json.readsBack_list (List.forall_mem_map.mpr fun function _ =>
      Json.readsBack_string function.shown)
  have aliases : ReadsBack (Json.mapOf Json.string catalog.aliases) :=
    Json.readsBack_object (List.forall_mem_map.mpr fun entry _ =>
      Json.readsBack_member entry.1 (Json.readsBack_string entry.2))
  exact Json.splitsInto_object (.cons (Json.splitsInto_member _ tables)
    (.cons (Json.readsBack_member _ functions) (.cons (Json.readsBack_member _ aliases)
      (.cons (Json.readsBack_member _ catalog.settings.readsBack_toJson) .nil))))

/-- A catalog is read from its words where an object, a list in it, and a table in that may
be opened. -/
theorem reads_toJson {depth : Nat} (room : 5 < depth) {catalog : Catalog}
    (named : ∀ function ∈ catalog.functions, ∃ name, function = .ofName name)
    (finite : ∀ x, .number x ∈ catalog.cells → isFinite x = true) :
    Reads Catalog.reader depth catalog.toJson catalog := by
  obtain ⟨tables, functions, aliases, settings⟩ := catalog
  have readsTables : Reads (Json.readList Table.reader) (depth - 1)
      (Json.list (tables.map Table.toJson)) tables := by
    refine Json.reads_list (by omega) ?_ fun table _ => Json.startsValue_object _
    intro table member
    refine Table.reads_toJson (by omega) fun x listed => finite x ?_
    exact List.mem_flatMap.mpr ⟨table, member, listed⟩
  have readsFunctions : Reads (Json.readList AggregateFunction.reader) (depth - 1)
      (Json.list (functions.map AggregateFunction.toJson)) functions := by
    refine Json.reads_list (by omega) ?_ ?_
    · exact fun function member => function.reads_toJson _ (named function member)
    · exact fun function _ => ⟨_, _, rfl, nofun, nofun⟩
  have readsAliases : Reads (Json.readMap Json.readText) (depth - 1)
      (Json.mapOf Json.string aliases) aliases :=
    Json.reads_mapOf (by omega) fun entry _ => Json.reads_string _ entry.2
  -- The draft behind each member holds what was read up to it.
  have first := readsTables.fill fun tables => Draft.mk (some tables) none none none
  have second := readsFunctions.fill
    fun functions => Draft.mk (some tables) (some functions) none none
  have third := readsAliases.fill
    fun aliases => Draft.mk (some tables) (some functions) (some aliases) none
  have readsSettings : Reads EngineSettings.reader (depth - 1) settings.toJson settings :=
    settings.reads_toJson (by omega)
  have fourth := readsSettings.fill
    fun settings => Draft.mk (some tables) (some functions) (some aliases) (some settings)
  let last : Draft := ⟨some tables, some functions, some aliases, some settings⟩
  have finished : last.finish = .ok ⟨tables, functions, aliases, settings⟩ := rfl
  refine Json.reads_record (by omega) ?_ finished
  exact .member _ rfl rfl first (.member _ rfl rfl second (.member _ rfl rfl third
    (.member _ rfl rfl fourth (.done last))))

/-- A catalog that is read where a catalog is written holds no number that is not finite. -/
theorem isFinite_of_reread {catalog : Catalog}
    (finite : ∀ x, .number x ∈ catalog.cells → isFinite x = true) :
    ∀ x, .number x ∈ catalog.reread.cells → isFinite x = true := by
  intro x listed
  obtain ⟨_, listedTable, here⟩ := List.mem_flatMap.mp listed
  obtain ⟨table, member, rfl⟩ := List.mem_map.mp listedTable
  exact Table.isFinite_of_reread
    (fun y inTable => finite y (List.mem_flatMap.mpr ⟨table, member, inTable⟩)) x here

/-- A catalog whose numbers have short texts is read as itself. -/
theorem reread_eq_self {catalog : Catalog}
    (short : ∀ x, .number x ∈ catalog.cells → Json.hasShortText x = true) :
    catalog.reread = catalog := by
  have tables : catalog.tables.map Table.reread = catalog.tables := by
    refine (List.map_congr_left ?_).trans (List.map_id _)
    intro table member
    exact Table.reread_eq_self fun x listed =>
      short x (List.mem_flatMap.mpr ⟨table, member, listed⟩)
  rw [reread, tables]

/-- The text of a catalog is read as the catalog with its numbers as they are read. -/
theorem parse_toJson {catalog : Catalog}
    (visible : ∀ table ∈ catalog.tables, Text.isBlankText table.name = false)
    (named : ∀ function ∈ catalog.functions, ∃ name, function = .ofName name)
    (finite : ∀ x, .number x ∈ catalog.cells → isFinite x = true) :
    parse (Json.render catalog.toJson) = .ok catalog.reread := by
  have decoded : Json.decode reader (Json.render catalog.toJson) = .ok catalog.reread :=
    Json.decode_render (splitsInto_toJson finite)
      (reads_toJson (by decide) named (isFinite_of_reread finite))
  have noBlank : (catalog.reread.tables.any fun table => Text.isBlankText table.name) = false := by
    rw [reread, List.any_map, List.any_eq_false]
    intro table member
    rw [Function.comp_apply, Table.reread, visible table member]
    exact Bool.false_ne_true
  rw [parse, decoded]
  simp only [noBlank, Bool.false_eq_true, if_false]

/-- A catalog of finite numbers whose tables have names is read from its own text, for all
strings in it, as the catalog with every number as its text is read. If neither the
significand nor the power of ten of any number is rounded, it is read as itself. -/
theorem ofText_toJson {catalog : Catalog}
    (visible : ∀ table ∈ catalog.tables, Text.isBlankText table.name = false)
    (named : ∀ function ∈ catalog.functions, ∃ name, function = .ofName name)
    (finite : ∀ x, .number x ∈ catalog.cells → isFinite x = true) :
    ofText (Json.render catalog.toJson) = .ok catalog.reread ∧
      ((∀ x, .number x ∈ catalog.cells → Json.hasShortText x = true) →
        ofText (Json.render catalog.toJson) = .ok catalog) := by
  have read : ofText (Json.render catalog.toJson) = .ok catalog.reread :=
    congrArg (Except.mapError LoadFault.inText) (parse_toJson visible named finite)
  refine ⟨read, ?_⟩
  intro short
  rw [read, reread_eq_self short]

/-- The sample is read from its own text as itself. -/
theorem ofText_sample : ofText (Json.render sample.toJson) = .ok sample := by
  have visible : ∀ table ∈ sample.tables, Text.isBlankText table.name = false := by decide +kernel
  have known : ∀ function ∈ sample.functions, function = .ofName function.name := by
    decide +kernel
  have finite : ∀ x, .number x ∈ sample.cells → isFinite x = true := by decide +kernel
  have short : ∀ x, .number x ∈ sample.cells → Json.hasShortText x = true := by decide +kernel
  exact (ofText_toJson visible (fun function member => ⟨_, known function member⟩) finite).2 short

/-- A number of sixteen digits that is written with a zero behind its point is read as the
number before it, so a catalog that holds it is read as another one. -/
theorem ofText_toJson_ne :
    let catalog : Catalog :=
      ⟨[⟨"t", "", [], [], [.ofList [("n", .number (Decimal.ofNat 8000000000000004))]]⟩], [.sum],
        .empty, {}⟩
    (∀ table ∈ catalog.tables, Text.isBlankText table.name = false) ∧
      (∀ function ∈ catalog.functions, function = .ofName function.name) ∧
      (∀ x, .number x ∈ catalog.cells → isFinite x = true) ∧
      ofText (Json.render catalog.toJson) ≠ .ok catalog := by
  intro catalog
  have visible : ∀ table ∈ catalog.tables, Text.isBlankText table.name = false := by
    decide +kernel
  have known : ∀ function ∈ catalog.functions, function = .ofName function.name := by
    decide +kernel
  have finite : ∀ x, .number x ∈ catalog.cells → isFinite x = true := by decide +kernel
  refine ⟨visible, known, finite, ?_⟩
  have read := parse_toJson visible (fun function member => ⟨_, known function member⟩) finite
  have other : catalog.reread ≠ catalog := by decide +kernel
  rw [ofText, read]
  intro same
  exact other (Except.ok.inj same)

end Catalog

end MetricQuery
