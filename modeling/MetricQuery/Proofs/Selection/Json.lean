import MetricQuery.Proofs.Json.Value
import MetricQuery.Selection.Json

/-!
# Written metrics and dimensions are read back

A metric and a dimension are objects of a few strings, so they are read back for
all characters in them. A dimension without a type has no member for it and is read
as one without a type. Each of them opens one object and holds nothing that opens
another.
-/

namespace MetricQuery

open Json (ReadsBack Reads StartsValue Fills)

/-- A field type is read back from its name. -/
theorem FieldType.reads_toJson (depth : Nat) (type : FieldType) :
    Reads FieldType.reader depth type.toJson type := by
  refine Json.reads_variant depth ?_
  cases type <;> rfl

namespace Metric

/-- The words of a metric are read back. -/
theorem readsBack_toJson (metric : Metric) : ReadsBack metric.toJson := by
  refine Json.readsBack_object ?_
  simp only [List.forall_mem_cons]
  exact ⟨Json.readsBack_member _ (Json.readsBack_string _),
    Json.readsBack_member _ (Json.readsBack_string _),
    Json.readsBack_member _ (Json.readsBack_string _), nofun⟩

/-- A metric is read back where one more object may be opened. -/
theorem reads_toJson {depth : Nat} (room : 1 < depth) (metric : Metric) :
    Reads Metric.reader depth metric.toJson metric := by
  let last : Draft := ⟨some metric.value, some metric.label, some metric.type⟩
  have finished : last.finish = .ok metric := rfl
  refine Json.reads_record room ?_ finished
  have value := (Json.reads_string (depth - 1) metric.value).fill
    fun text => Draft.mk (some text) none none
  have label := (Json.reads_string (depth - 1) metric.label).fill
    fun text => Draft.mk (some metric.value) (some text) none
  have type := (FieldType.reads_toJson (depth - 1) metric.type).fill
    fun type => Draft.mk (some metric.value) (some metric.label) (some type)
  exact .member _ rfl rfl value (.member _ rfl rfl label (.member _ rfl rfl type (.done last)))

/-- A list of metrics is read back. -/
theorem readsBack_list (metrics : List Metric) : ReadsBack (Json.list (metrics.map toJson)) :=
  Json.readsBack_list (List.forall_mem_map.mpr fun metric _ => metric.readsBack_toJson)

/-- A list of metrics is read back where the list and one object may be opened. -/
theorem reads_list {depth : Nat} (room : 2 < depth) (metrics : List Metric) :
    Reads (Json.readList Metric.reader) depth (Json.list (metrics.map toJson)) metrics :=
  Json.reads_list (by omega) (fun metric _ => metric.reads_toJson (by omega))
    fun metric _ => Json.startsValue_object _

end Metric

namespace Dimension

/-- The words of a dimension are read back. -/
theorem readsBack_toJson (dimension : Dimension) : ReadsBack dimension.toJson := by
  refine Json.readsBack_object ?_
  have value := Json.readsBack_member "value" (Json.readsBack_string dimension.value)
  have label := Json.readsBack_member "label" (Json.readsBack_string dimension.label)
  cases dimension.type with
  | none =>
    simp only [List.append_nil, List.forall_mem_cons]
    exact ⟨value, label, nofun⟩
  | some type =>
    simp only [List.cons_append, List.nil_append, List.forall_mem_cons]
    exact ⟨value, label, Json.readsBack_member _ (Json.readsBack_string _), nofun⟩

/-- A dimension is read back where one more object may be opened. -/
theorem reads_toJson {depth : Nat} (room : 1 < depth) (dimension : Dimension) :
    Reads Dimension.reader depth dimension.toJson dimension := by
  obtain ⟨field, name, type⟩ := dimension
  have value := (Json.reads_string (depth - 1) field).fill
    fun text => Draft.mk (some text) none none
  have label := (Json.reads_string (depth - 1) name).fill
    fun text => Draft.mk (some field) (some text) none
  cases type with
  | none =>
    let last : Draft := ⟨some field, some name, none⟩
    have finished : last.finish = .ok ⟨field, name, none⟩ := rfl
    refine Json.reads_record room ?_ finished
    exact .member _ rfl rfl value (.member _ rfl rfl label (.done last))
  | some type =>
    let last : Draft := ⟨some field, some name, some (some type)⟩
    have finished : last.finish = .ok ⟨field, name, some type⟩ := rfl
    have known := (Json.reads_optional (FieldType.reads_toJson (depth - 1) type)).fill
      fun found => Draft.mk (some field) (some name) (some found)
    refine Json.reads_record room ?_ finished
    exact .member _ rfl rfl value (.member _ rfl rfl label (.member _ rfl rfl known (.done last)))

/-- A list of dimensions is read back. -/
theorem readsBack_list (dimensions : List Dimension) :
    ReadsBack (Json.list (dimensions.map toJson)) :=
  Json.readsBack_list (List.forall_mem_map.mpr fun dimension _ => dimension.readsBack_toJson)

/-- A list of dimensions is read back where the list and one object may be opened. -/
theorem reads_list {depth : Nat} (room : 2 < depth) (dimensions : List Dimension) :
    Reads (Json.readList Dimension.reader) depth (Json.list (dimensions.map toJson)) dimensions :=
  Json.reads_list (by omega) (fun dimension _ => dimension.reads_toJson (by omega))
    fun dimension _ => Json.startsValue_object _

end Dimension

end MetricQuery
