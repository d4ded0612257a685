import SqlWorkflow.Action.Written
import SqlWorkflow.Proofs.Json.Records

/-!
# The fields of a written config

A member of a config sets its field and leaves the others as they are, and what
it sets does not depend on them.
-/

namespace SqlWorkflow.Action.WrittenConfig

/-- The part under a key: it is taken from the source if the key is the
field. -/
def pick {α : Type} (field key : String) (source target : α) : α :=
  if field = key then source else target

theorem pick_of_ne {α : Type} {field key : String} (h : field ≠ key)
    (source target : α) : pick field key source target = target :=
  if_neg h

theorem pick_comm {α : Type} {field other : String} (h : field ≠ other)
    (key : String) (a b c : α) :
    pick field key a (pick other key b c) =
      pick other key b (pick field key a c) := by
  by_cases hfield : field = key
  · have hother : other ≠ key := fun heq => h (hfield.trans heq.symm)
    rw [pick_of_ne hother, pick_of_ne hother]
  · rw [pick_of_ne hfield, pick_of_ne hfield]

/-- A config with one field taken from another. -/
def taking (field : String)
    (source target : WrittenConfig) : WrittenConfig where
  name := pick field "name" source.name target.name
  schema := pick field "schema" source.schema target.schema
  database := pick field "database" source.database target.database
  description := pick field "description" source.description target.description
  tags := pick field "tags" source.tags target.tags
  disabled := pick field "disabled" source.disabled target.disabled
  dependencies :=
    pick field "dependencies" source.dependencies target.dependencies
  hermetic := pick field "hermetic" source.hermetic target.hermetic
  dependOnDependencyAssertions := pick field "dependOnDependencyAssertions"
    source.dependOnDependencyAssertions target.dependOnDependencyAssertions
  columns := pick field "columns" source.columns target.columns
  filename := pick field "filename" source.filename target.filename
  isProtected := pick field "protected" source.isProtected target.isProtected
  materialized :=
    pick field "materialized" source.materialized target.materialized
  uniqueKey := pick field "uniqueKey" source.uniqueKey target.uniqueKey
  onSchemaChange :=
    pick field "onSchemaChange" source.onSchemaChange target.onSchemaChange
  checks := pick field "assertions" source.checks target.checks
  bigquery := pick field "bigquery" source.bigquery target.bigquery
  hasOutput := pick field "hasOutput" source.hasOutput target.hasOutput

theorem taking_comm {field other : String} (h : field ≠ other)
    (a b c : WrittenConfig) :
    taking field a (taking other b c) = taking other b (taking field a c) := by
  simp only [taking, pick_comm h]

/-- Setting a field puts what is read into that field. -/
theorem set_eq (field : String) (value : Json) (record : WrittenConfig) :
    set field value record = (set field value empty).map fun read =>
      taking field read record := by
  simp only [set]
  split
  -- Only the last case is left: a name that is none of the fields.
  all_goals try exact Json.RecordSchema.map_overlay fun _ => rfl
  simp only [imp_false] at *
  simp only [Except.map, taking, pick, *, if_false]

theorem overlays_taking (field : String)
    (read : WrittenConfig) : layout.Overlays field (taking field read) := by
  intro other value record hne
  change set other value (taking field read record) =
    (set other value record).map (taking field read)
  rw [set_eq other value (taking field read record), set_eq other value record]
  exact Json.RecordSchema.map_overlay fun next =>
    taking_comm hne next read record

theorem independent_layout : layout.Independent := by
  intro field value record next hset
  change set field value record = .ok next at hset
  rw [set_eq] at hset
  obtain ⟨read, hread, rfl⟩ := Text.exists_of_map_eq_ok hset
  refine ⟨taking field read, overlays_taking field read, fun other => ?_⟩
  change set field value other = _
  rw [set_eq, hread]
  rfl

/-- A part of a config that stands under one key is touched by the field of this
name only. -/
theorem keeps_of_taking {α : Type} {key : String} {part : WrittenConfig → α}
    (hpart : ∀ field source target, part (taking field source target) =
      pick field key (part source) (part target)) :
    layout.Keeps key part := by
  intro other value record next hne hnext
  change set other value record = .ok next at hnext
  rw [set_eq] at hnext
  obtain ⟨read, -, rfl⟩ := Text.exists_of_map_eq_ok hnext
  rw [hpart, pick_of_ne hne]

theorem set_null (field : String) (record : WrittenConfig) :
    set field .null record = .ok (taking field empty record) := by
  rw [set_eq]
  simp only [set]
  split <;> rfl

/-- A field without other names is set by the key of its name. -/
theorem eq_of_fieldOf?_eq_some {field key : String}
    (halias : ∀ pair ∈ layout.aliases, pair.2 ≠ field)
    (h : layout.fieldOf? key = some field) : key = field := by
  rcases Json.RecordSchema.mem_of_fieldOf?_eq_some h with heq | hmem
  · exact heq
  · exact absurd rfl (halias _ hmem)

theorem taking_self (field : String)
    (record : WrittenConfig) : taking field record record = record := by
  simp only [taking, pick, ite_self]

/-- A member that is null might as well be left out, unless another one sets its
field too. -/
theorem ofMembers_null {before after : Json.Members} {key : String}
    (hother : ∀ field, layout.fieldOf? key = some field →
      ∀ member ∈ before ++ after, layout.fieldOf? member.1 ≠ some field) :
    ofMembers (before ++ (key, .null) :: after) =
      ofMembers (before ++ after) := by
  cases hfield : layout.fieldOf? key with
  | none =>
    exact Json.RecordSchema.readMembers_skip hfield rfl .null before
      after [] empty
  | some field =>
    have hoverlay := overlays_taking field empty
    have hothers := hother field hfield
    calc
      ofMembers (before ++ (key, .null) :: after) =
        (ofMembers (before ++ after)).map (taking field empty) :=
        Json.RecordSchema.readMembers_insert hoverlay hothers hfield
          (set_null field) List.not_mem_nil empty
      _ = layout.readMembers [] (taking field empty empty) (before ++ after) :=
        (Json.RecordSchema.readMembers_overlay hoverlay hothers
          (fun _ _ => Iff.rfl) empty).symm
      _ = ofMembers (before ++ after) := by rw [taking_self, ofMembers]

end SqlWorkflow.Action.WrittenConfig
