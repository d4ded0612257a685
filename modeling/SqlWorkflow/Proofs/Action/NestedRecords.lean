import SqlWorkflow.Proofs.Action.DependencyNames
import SqlWorkflow.Proofs.Action.Kinds
import SqlWorkflow.Proofs.Json.Records

/-!
# Records inside a config

The data checks and the warehouse options of a config are records, as references
and columns may be. Where a record is read, an object with the keys of its
schema is accepted, and so is an array of its first fields, which is read as the
object that it stands for. A config without such arrays has records that are
objects.
-/

namespace SqlWorkflow

namespace Json

/-- The keys that an object for a record may have. -/
def RecordSchema.keys {σ : Type} (schema : RecordSchema σ) : List String :=
  schema.fields ++ schema.aliases.map Prod.fst

/-- An object with keys of a schema. -/
def IsObjectOf {σ : Type} (schema : RecordSchema σ) (value : Json) : Prop :=
  ∃ members, value = .object members ∧
    ∀ member ∈ members, member.1 ∈ schema.keys

/-- An array of the first fields of a schema, read as the object with these
fields. -/
def IsArrayOf {σ : Type} (schema : RecordSchema σ) (value : Json) : Prop :=
  ∃ items, value = .array items ∧ items.length ≤ schema.fields.length ∧
    schema.decode (.array items) =
      schema.decode (.object (schema.fields.zip items))

namespace RecordSchema

variable {σ : Type} {schema : RecordSchema σ}

theorem mem_keys_of_fieldOf?_eq_some {key field : String}
    (h : schema.fieldOf? key = some field) : key ∈ schema.keys := by
  rw [fieldOf?] at h
  split at h
  · rename_i hmem
    exact List.mem_append_left _ hmem
  · obtain ⟨former, latter, heq, -⟩ := List.lookup_eq_some_iff.1 h
    refine List.mem_append_right _ (List.mem_map.2 ⟨(key, field), ?_, rfl⟩)
    rw [heq]
    exact List.mem_append_right _ List.mem_cons_self

/-- A value that is read as a record is an object or an array. -/
theorem isObjectOf_or_isArrayOf (hstrict : schema.strict = true)
    (hnodup : schema.fields.Nodup) {value : Json} {record : σ}
    (h : schema.decode value = .ok record) :
    IsObjectOf schema value ∨ IsArrayOf schema value := by
  cases value with
  | object members =>
    refine .inl ⟨members, rfl, fun member hmem => ?_⟩
    rcases exists_set_of_mem h hmem with ⟨-, hlax⟩ | ⟨field, -, -, hfield, -⟩
    · cases hstrict.symm.trans hlax
    · exact mem_keys_of_fieldOf?_eq_some hfield
  | array items =>
    have hlength := length_le_of_decode_array h
    exact .inr ⟨items, rfl, hlength, decode_array_eq_object hnodup hlength⟩
  | null | bool _ | number _ | string _ => cases h

end RecordSchema

namespace Decode

variable {α : Type} {decoder : Decoder α}

theorem null_or_of_option {value : Json} {read : Option α}
    (h : option decoder value = .ok read) :
    value = .null ∨ ∃ a, decoder value = .ok a := by
  rw [option.eq_def] at h
  split at h
  · exact .inl rfl
  · obtain ⟨a, ha, -⟩ := Text.exists_of_map_eq_ok h
    exact .inr ⟨a, ha⟩

theorem of_mem_items {items : List Json} {read : List α}
    (h : Decode.items decoder items = .ok read) {item : Json}
    (hmem : item ∈ items) : ∃ a, decoder item = .ok a := by
  induction items generalizing read with
  | nil => cases hmem
  | cons first rest ih =>
    rw [Decode.items] at h
    split at h
    · cases h
    · rename_i a hfirst
      obtain ⟨others, hrest, -⟩ := Text.exists_of_map_eq_ok h
      rcases List.mem_cons.1 hmem with rfl | hmem
      · exact ⟨a, hfirst⟩
      · exact ih hrest hmem

/-- The values of an object are read as the items of a list are. -/
theorem members_eq_items (members : Members) :
    Decode.members decoder members =
      (Decode.items decoder (members.map Prod.snd)).map fun read =>
        (members.map Prod.fst).zip read := by
  induction members with
  | nil => rfl
  | cons first rest ih =>
    obtain ⟨key, value⟩ := first
    simp only [Decode.members, List.map_cons, Decode.items, ih]
    cases decoder value with
    | error e => rfl
    | ok a => cases Decode.items decoder (rest.map Prod.snd) <;> rfl

/-- One value or a list of values. -/
theorem one_or_many {value : Json} {read : List α}
    (h : oneOrMany decoder value = .ok read) :
    (∃ a, decoder value = .ok a) ∨ ∃ items,
      value = .array items ∧ ∀ item ∈ items, ∃ a, decoder item = .ok a := by
  cases hone : decoder value with
  | ok a => exact .inl ⟨a, rfl⟩
  | error e =>
    right
    simp only [oneOrMany, firstOf, hone, Except.map] at h
    cases value with
    | array items =>
      refine ⟨items, rfl, fun item hmem => ?_⟩
      cases hlist : Decode.items decoder items with
      | ok read => exact of_mem_items hlist hmem
      | error e =>
        simp only [list, hlist] at h
        cases h
    | null | bool _ | number _ | string _ | object _ => cases h

theorem object_of_map {value : Json} {read : List (String × α)}
    (h : map decoder value = .ok read) :
    ∃ members, value = .object members ∧
      ∀ member ∈ members, ∃ a, decoder member.2 = .ok a := by
  cases value with
  | object members =>
    refine ⟨members, rfl, fun member hmem => ?_⟩
    rw [map, members_eq_items] at h
    obtain ⟨values, hvalues, -⟩ := Text.exists_of_map_eq_ok h
    exact of_mem_items hvalues (List.mem_map.2 ⟨member, hmem, rfl⟩)
  | null | bool _ | number _ | string _ | array _ => cases h

/-- A string or another form. -/
theorem string_or {f : String → α} {other : Decoder α} {typeName : String}
    {value : Json} {read : α}
    (h : firstOf typeName [fun value => (string value).map f, other] value =
      .ok read) :
    (∃ s, value = .string s) ∨ ∃ a, other value = .ok a := by
  cases value with
  | string s => exact .inl ⟨s, rfl⟩
  | null | bool _ | number _ | array _ | object _ =>
    right
    simp only [firstOf, string, wrongType, Except.map] at h
    split at h
    · rename_i a ha
      exact ⟨a, ha⟩
    · cases h

end Decode

end Json

namespace Action

open Json (IsObjectOf IsArrayOf RecordSchema)

/-- A reference is a name or a record. -/
theorem reference_form {value : Json} {read : Reference}
    (h : reference value = .ok read) :
    (∃ name, value = .string name) ∨ IsObjectOf WrittenReference.layout value ∨
      IsArrayOf WrittenReference.layout value := by
  rcases Json.Decode.string_or h with hname | ⟨a, hrecord⟩
  · exact .inl hname
  · right
    rw [referenceRecord] at hrecord
    split at hrecord
    · cases hrecord
    · rename_i record hdecode
      exact RecordSchema.isObjectOf_or_isArrayOf rfl (by decide) hdecode

theorem column_form {value : Json} {read : Column}
    (h : column value = .ok read) :
    (∃ description, value = .string description) ∨
      IsObjectOf WrittenColumn.schema value ∨
      IsArrayOf WrittenColumn.schema value := by
  rcases Json.Decode.string_or h with hdescription | ⟨a, hrecord⟩
  · exact .inl hdescription
  · obtain ⟨record, hdecode, -⟩ := Text.exists_of_map_eq_ok hrecord
    exact .inr (RecordSchema.isObjectOf_or_isArrayOf rfl (by decide) hdecode)

/-- The forms of the values inside a config, where records have some form. -/
structure NestedForm (IsRecord : ∀ {σ : Type}, RecordSchema σ → Json → Prop)
    (members : Json.Members) : Prop where
  checks : ∀ value, ("assertions", value) ∈ members →
    value = .null ∨ IsRecord WrittenChecks.schema value
  bigquery : ∀ value, ("bigquery", value) ∈ members →
    value = .null ∨ IsRecord WrittenBigQuery.schema value
  dependencies : ∀ key ∈ dependencyKeys, ∀ value, (key, value) ∈ members →
    value = .null ∨
      ((∃ name, value = .string name) ∨
        IsRecord WrittenReference.layout value) ∨
      ∃ items, value = .array items ∧ ∀ item ∈ items,
        (∃ name, item = .string name) ∨ IsRecord WrittenReference.layout item
  columns : ∀ value, ("columns", value) ∈ members → value = .null ∨
    ∃ entries, value = .object entries ∧
      ∀ entry ∈ entries, (∃ description, entry.2 = .string description) ∨
        IsRecord WrittenColumn.schema entry.2

example : WrittenReference.layout.keys =
    ["name", "schema", "database", "includeDependentAssertions", "dataset",
      "project"] :=
  rfl

/-- Nowhere in a config an array stands for a record. -/
structure NoArrayRecords (members : Json.Members) : Prop where
  checks : ∀ items, ("assertions", .array items) ∉ members
  bigquery : ∀ items, ("bigquery", .array items) ∉ members
  dependencies : ∀ key ∈ dependencyKeys, ∀ items,
    (key, .array items) ∈ members →
      (∀ read, reference (.array items) ≠ .ok read) ∧
        ∀ inner, .array inner ∉ items
  columns : ∀ entries, ("columns", .object entries) ∈ members →
    ∀ entry ∈ entries, ∀ items, entry.2 ≠ .array items

/-- The values inside a config can be read. -/
structure NestedRead (members : Json.Members) : Prop where
  checks : ∀ value, ("assertions", value) ∈ members →
    value = .null ∨ ∃ read, WrittenChecks.schema.decode value = .ok read
  bigquery : ∀ value, ("bigquery", value) ∈ members →
    value = .null ∨ ∃ read, WrittenBigQuery.schema.decode value = .ok read
  dependencies : ∀ key ∈ dependencyKeys, ∀ value, (key, value) ∈ members →
    value = .null ∨ (∃ read, reference value = .ok read) ∨ ∃ items,
      value = .array items ∧ ∀ item ∈ items, ∃ read, reference item = .ok read
  columns : ∀ value, ("columns", value) ∈ members →
    value = .null ∨ ∃ entries, value = .object entries ∧ ∀ entry ∈ entries,
      ∃ read, column entry.2 = .ok read

theorem nestedRead_of_ofMembers {members : Json.Members}
    {written : WrittenConfig}
    (hread : WrittenConfig.ofMembers members = .ok written) :
    NestedRead members := by
  have hset {key field : String} {value : Json} (hmem : (key, value) ∈ members)
      (hfield : WrittenConfig.layout.fieldOf? key = some field) :
      ∃ before next, WrittenConfig.set field value before = .ok next := by
    rcases RecordSchema.exists_set_of_mem hread hmem with
      ⟨hnone, -⟩ | ⟨other, before, next, hother, hset⟩
    · cases hnone.symm.trans hfield
    · cases hother.symm.trans hfield
      exact ⟨before, next, hset⟩
  refine ⟨?checks, ?bigquery, ?dependencies, ?columns⟩
  case checks =>
    intro value hmem
    obtain ⟨before, next, h⟩ := hset hmem rfl
    change (Json.Decode.option WrittenChecks.schema.decode value).map _ = _ at h
    obtain ⟨read, hvalue, -⟩ := Text.exists_of_map_eq_ok h
    exact Json.Decode.null_or_of_option hvalue
  case bigquery =>
    intro value hmem
    obtain ⟨before, next, h⟩ := hset hmem rfl
    change (Json.Decode.option WrittenBigQuery.schema.decode value).map _ =
      _ at h
    obtain ⟨read, hvalue, -⟩ := Text.exists_of_map_eq_ok h
    exact Json.Decode.null_or_of_option hvalue
  case dependencies =>
    intro key hkey value hmem
    obtain ⟨before, next, h⟩ := hset hmem (fieldOf?_eq_dependencies_iff.2 hkey)
    change (Json.Decode.option (Json.Decode.oneOrMany reference) value).map _ =
      _ at h
    obtain ⟨read, hvalue, -⟩ := Text.exists_of_map_eq_ok h
    exact (Json.Decode.null_or_of_option hvalue).imp_right fun ⟨_, hmany⟩ =>
      Json.Decode.one_or_many hmany
  case columns =>
    intro value hmem
    obtain ⟨before, next, h⟩ := hset hmem rfl
    change (Json.Decode.option (Json.Decode.map column) value).map _ = _ at h
    obtain ⟨read, hvalue, -⟩ := Text.exists_of_map_eq_ok h
    exact (Json.Decode.null_or_of_option hvalue).imp_right fun ⟨_, hmap⟩ =>
      Json.Decode.object_of_map hmap

theorem NestedRead.form {members : Json.Members} (h : NestedRead members) :
    NestedForm (fun schema value => IsObjectOf schema value ∨
      IsArrayOf schema value) members where
  checks value hmem := (h.checks value hmem).imp_right fun ⟨_, hread⟩ =>
    RecordSchema.isObjectOf_or_isArrayOf rfl (by decide) hread
  bigquery value hmem := (h.bigquery value hmem).imp_right fun ⟨_, hread⟩ =>
    RecordSchema.isObjectOf_or_isArrayOf rfl (by decide) hread
  dependencies key hkey value hmem := by
    rcases h.dependencies key hkey value hmem with
      hnull | ⟨read, hone⟩ | ⟨items, hitems, hmany⟩
    · exact .inl hnull
    · exact .inr (.inl (reference_form hone))
    · refine .inr (.inr ⟨items, hitems, fun item hitem => ?_⟩)
      obtain ⟨read, hread⟩ := hmany item hitem
      exact reference_form hread
  columns value hmem := by
    rcases h.columns value hmem with hnull | ⟨entries, hentries, hcolumns⟩
    · exact .inl hnull
    · refine .inr ⟨entries, hentries, fun entry hentry => ?_⟩
      obtain ⟨read, hread⟩ := hcolumns entry hentry
      exact column_form hread

theorem isObjectOf_of_not_array {σ : Type} {schema : RecordSchema σ}
    {value : Json} (h : IsObjectOf schema value ∨ IsArrayOf schema value)
    (hnot : ∀ items, value ≠ .array items) : IsObjectOf schema value := by
  rcases h with hobject | ⟨items, harray, -⟩
  · exact hobject
  · exact absurd harray (hnot items)

theorem NestedRead.objects {members : Json.Members} (h : NestedRead members)
    (hnone : NoArrayRecords members) : NestedForm IsObjectOf members where
  checks value hmem := (h.form.checks value hmem).imp_right fun hform =>
    isObjectOf_of_not_array hform fun items heq =>
      hnone.checks items (heq ▸ hmem)
  bigquery value hmem := (h.form.bigquery value hmem).imp_right fun hform =>
    isObjectOf_of_not_array hform fun items heq =>
      hnone.bigquery items (heq ▸ hmem)
  dependencies key hkey value hmem := by
    rcases h.dependencies key hkey value hmem with
      hnull | ⟨read, hone⟩ | ⟨items, rfl, hmany⟩
    · exact .inl hnull
    · refine .inr (.inl ((reference_form hone).imp_right fun hform =>
        isObjectOf_of_not_array hform ?_))
      rintro items rfl
      exact (hnone.dependencies key hkey items hmem).1 read hone
    · refine .inr (.inr ⟨items, rfl, fun item hitem => ?_⟩)
      obtain ⟨read, hread⟩ := hmany item hitem
      refine (reference_form hread).imp_right fun hform =>
        isObjectOf_of_not_array hform ?_
      rintro inner rfl
      exact (hnone.dependencies key hkey items hmem).2 inner hitem
  columns value hmem := by
    rcases h.form.columns value hmem with hnull | ⟨entries, rfl, hcolumns⟩
    · exact .inl hnull
    · refine .inr ⟨entries, rfl, fun entry hentry => ?_⟩
      exact (hcolumns entry hentry).imp_right fun hform =>
        isObjectOf_of_not_array hform (hnone.columns entries hmem entry hentry)

/-- In a config that is accepted, a record is an object with the keys of its
schema, or an array of its first fields, which is read as the object that it
stands for. If no array stands for a record, records are objects. -/
theorem nested_of_normalize {members : Json.Members} {kind : Kind}
    {source : Source} {file : String} {config : Config}
    (h : normalize (.object members) kind source file = .ok config) :
    NestedForm (fun schema value => IsObjectOf schema value ∨
      IsArrayOf schema value) members ∧
      (NoArrayRecords members → NestedForm IsObjectOf members) := by
  obtain ⟨_, written, ⟨rfl⟩, hread, -⟩ := exists_build_of_normalize h
  have hnested := nestedRead_of_ofMembers hread
  exact ⟨hnested.form, hnested.objects⟩

def documentedTable : Json.Members :=
  [("dependencies", .array [.string "raw.events",
    .object [("name", .string "users"), ("schema", .string "shop")]]),
    ("columns", .object [("id", .object [("description", .string "The key")]),
      ("day", .string "The date")]),
    ("assertions", .object [("nonNull", .string "id")]), ("bigquery", .null)]

theorem nested_of_normalize_documentedTable :
    (∃ config, normalize (.object documentedTable) .table .block
      "definitions/orders.sqlx" = .ok config) ∧
      NestedForm IsObjectOf documentedTable := by
  have hread : ∃ config,
      normalize (.object documentedTable) .table .block
        "definitions/orders.sqlx" = .ok config := ⟨_, rfl⟩
  refine ⟨hread,
    hread.elim fun config h => (nested_of_normalize h).2 ⟨?_, ?_, ?_, ?_⟩⟩
  · simp [documentedTable]
  · simp [documentedTable]
  · intro key hkey items hmem
    have hitems : items =
        [.string "raw.events",
          .object [("name", .string "users"), ("schema", .string "shop")]] := by
      simp only [documentedTable, List.mem_cons, Prod.mk.injEq,
        Json.array.injEq, reduceCtorEq, and_false, List.not_mem_nil,
        or_false] at hmem
      exact hmem.2
    subst hitems
    exact ⟨fun read => nofun, by simp⟩
  · intro entries hmem
    have hentries : entries =
        [("id", .object [("description", .string "The key")]),
          ("day", .string "The date")] := by
      simpa [documentedTable] using hmem
    subst hentries
    exact List.forall_mem_cons.2 ⟨nofun, List.forall_mem_singleton.2 nofun⟩

/-- An array stands for the data checks of a table: its first item lists the
columns of a key. -/
theorem checks_of_array :
    (normalize (.object [("assertions", .array [Json.strings ["id"]])]) .table
      .block "definitions/example.sqlx").map (·.checks) =
      .ok ⟨[["id"]], [], []⟩ ∧
      ¬ NestedForm IsObjectOf
        [("assertions", .array [Json.strings ["id"]])] := by
  refine ⟨rfl, fun h => ?_⟩
  rcases h.checks _ List.mem_cons_self with hnull | ⟨members, hobject, -⟩
  · cases hnull
  · cases hobject

end Action

end SqlWorkflow
