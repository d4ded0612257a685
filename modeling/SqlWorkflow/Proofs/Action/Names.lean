import SqlWorkflow.Action.ConfigType
import SqlWorkflow.Proofs.Action.Fields
import SqlWorkflow.Proofs.Action.Kinds

/-!
# Names of tables

The config of a table may leave out the name. Such a config is read like one
with a name, from which it differs in the name only; what is wrong with the one
is wrong with the other. For tables it makes no difference either whether the
config stands in a config block or in the entry of a script.
-/

namespace SqlWorkflow.Action

open Json (Members)
open Json.Decode (option string)

def Config.named (name : String) (config : Config) : Config :=
  { config with name := some name }

namespace WrittenConfig

def withName (name : Option String) (written : WrittenConfig) : WrittenConfig :=
  { written with name := name }

theorem overlays_name (name : Option String) :
    layout.Overlays "name" (withName name) :=
  overlays_taking "name" { empty with name := name }

theorem keeps_name : layout.Keeps "name" WrittenConfig.name :=
  keeps_of_taking fun _ _ _ => rfl

theorem fieldOf?_eq_name_iff (key : String) :
    layout.fieldOf? key = some "name" ↔ key = "name" := by
  constructor
  · exact eq_of_fieldOf?_eq_some (by decide)
  · rintro rfl
    rfl

variable {members : Members} {written : WrittenConfig}

/-- Members without a name, and the same members with one. -/
theorem ofMembers_insert_name (habsent : members.get? "name" = none)
    (name : String) :
    ofMembers (members.insert "name" (.string name)) =
      (ofMembers members).map (withName (some name)) := by
  have hother : ∀ member ∈ members ++ [], layout.fieldOf? member.1 ≠
      some "name" := by
    intro member hmem hfield
    rw [List.append_nil] at hmem
    exact Members.key_ne_of_get?_eq_none habsent member hmem
      ((fieldOf?_eq_name_iff member.1).1 hfield)
  have hset (record : WrittenConfig) : layout.set "name" (.string name) record =
      .ok (withName (some name) record) := rfl
  have hread := Json.RecordSchema.readMembers_insert (overlays_name (some name))
    hother ((fieldOf?_eq_name_iff "name").2 rfl) hset List.not_mem_nil empty
  rw [List.append_nil] at hread
  rw [Members.insert_eq_append habsent]
  exact hread

theorem name_eq_none (habsent : members.get? "name" = none)
    (hread : ofMembers members = .ok written) : written.name = none := by
  refine keeps_name.readMembers (fun member hmem hfield => absurd ?_
    (Members.key_ne_of_get?_eq_none habsent member hmem)) hread
  exact (fieldOf?_eq_name_iff member.1).1 hfield

/-- The name of members that have one, and not null for it. -/
theorem exists_name {value : Json} (hget : members.get? "name" = some value)
    (hvalue : value ≠ .null) (hread : ofMembers members = .ok written) :
    ∃ name, written.name = some name := by
  obtain ⟨before, next, hset, hname⟩ :=
    keeps_name.exists_set_of_get? fieldOf?_eq_name_iff hget hread
  cases value with
  | null => exact absurd rfl hvalue
  | string name =>
    cases hset
    exact ⟨name, hname⟩
  | bool _ | number _ | array _ | object _ => cases hset

end WrittenConfig

variable {kind : Kind}

theorem typeFault_insert_name {members : Members}
    (habsent : members.get? "name" = none) (kind : Kind)
    (mismatch : Json.Mismatch) (name : String) :
    typeFault kind mismatch (members.insert "name" (.string name)) =
      typeFault kind mismatch members := by
  rw [Members.insert_eq_append habsent]
  clear habsent
  induction members with
  | nil => rfl
  | cons member rest ih =>
    obtain ⟨key, value⟩ := member
    simp only [List.cons_append, typeFault, ih]

/-! ## Where the config of a table stands -/

theorem allowedKeys_eq_block (hkind : kind.isTableLike = true) {source : Source}
    (hsource : source ≠ .listing) :
    kind.allowedKeys source = kind.allowedKeys .block := by
  cases source with
  | block => rfl
  | listing => exact absurd rfl hsource
  | script => cases kind <;> first | rfl | cases hkind

theorem readDetails_of_isTableLike (hkind : kind.isTableLike = true)
    (written : WrittenConfig) (file : String) :
    readDetails kind written file =
      ((readTable kind written).mapError
        (CompileError.invalidActionConfig file)).map .table := by
  cases kind <;> first | rfl | cases hkind

/-- The file of a table plays no part but in what is said about a fault. -/
theorem exists_build_eq (hkind : kind.isTableLike = true)
    (written : WrittenConfig) :
    ∃ result : Except Fault Config, ∀ file, build kind written file =
      result.mapError (.invalidActionConfig file) := by
  by_cases hname : written.name = some ""
  · exact ⟨.error (.emptyName kind), fun _ => if_pos hname⟩
  · simp only [build, if_neg hname, readDetails_of_isTableLike hkind]
    cases readTable kind written with
    | error fault => exact ⟨.error fault, fun _ => rfl⟩
    | ok table => exact ⟨.ok _, fun _ => rfl⟩

theorem ne_declaration (hkind : kind.isTableLike = true) :
    kind ≠ .declaration := by
  rintro rfl
  cases hkind

/-- The config of a table is read in the same way in a config block and in the
entry of a script, and in every file. -/
theorem exists_normalize_eq (hkind : kind.isTableLike = true) (value : Json) :
    ∃ result : Except Fault Config, ∀ (source : Source) (file : String),
      source ≠ .listing →
        normalize value kind source file =
          result.mapError (.invalidActionConfig file) := by
  cases value with
  | object members =>
    simp only [normalize, ne_declaration hkind, false_and, if_false]
    cases hkey : members.find? fun member => member.1 ∉
      kind.allowedKeys .block with
    | some member =>
      refine ⟨.error (.unexpectedKey kind member.1 member.2.typeName
        (Text.suggestion? member.1 (kind.allowedKeys .block))),
        fun source file hsource => ?_⟩
      rw [allowedKeys_eq_block hkind hsource, hkey]
      rfl
    | none =>
      cases hread : WrittenConfig.ofMembers members with
      | error mismatch =>
        refine ⟨.error (typeFault kind mismatch members),
          fun source file hsource => ?_⟩
        rw [allowedKeys_eq_block hkind hsource, hkey]
        rfl
      | ok written =>
        obtain ⟨result, hresult⟩ := exists_build_eq hkind written
        refine ⟨result, fun source file hsource => ?_⟩
        rw [allowedKeys_eq_block hkind hsource, hkey]
        exact hresult file
  | null | bool _ | number _ | string _ | array _ =>
    exact ⟨.error (.notAnObject kind _), fun _ _ _ => rfl⟩

/-! ## With a name and without -/

variable {members : Members}

theorem build_withName (hkind : kind.isTableLike = true)
    {written : WrittenConfig} (hwritten : written.name = none) {name : String}
    (hname : name ≠ "") (file : String) :
    build kind (written.withName (some name)) file =
      (build kind written file).map (Config.named name) := by
  have htable : readTable kind (written.withName (some name)) =
      readTable kind written := rfl
  have hnamed : (written.withName (some name)).name ≠ some "" :=
    fun h => hname (Option.some.inj h)
  have hunnamed : written.name ≠ some "" := by
    rw [hwritten]
    exact (Option.some_ne_none "").symm
  rw [build, build, if_neg hnamed, if_neg hunnamed,
    readDetails_of_isTableLike hkind, readDetails_of_isTableLike hkind, htable]
  cases readTable kind written with
  | error fault => rfl
  | ok table => rfl

theorem find?_insert_name (habsent : members.get? "name" = none) (value : Json)
    (kind : Kind) (source : Source) :
    (members.insert "name" value).find?
      (fun member => member.1 ∉ kind.allowedKeys source) =
      members.find? fun member => member.1 ∉ kind.allowedKeys source := by
  have hallowed : "name" ∈ kind.allowedKeys source :=
    List.mem_append_left _ (by decide)
  rw [Members.insert_eq_append habsent, List.find?_append]
  simp [hallowed]

/-- A config of a table that leaves out the name is read like the same config
with the name at its end. -/
theorem normalize_insert_name (hkind : kind.isTableLike = true)
    (habsent : members.get? "name" = none) {name : String} (hname : name ≠ "")
    (source : Source) (file : String) :
    normalize (.object (members.insert "name" (.string name))) kind source
      file =
      (normalize (.object members) kind source file).map
        (Config.named name) := by
  simp only [normalize, ne_declaration hkind, false_and, if_false,
    find?_insert_name habsent, WrittenConfig.ofMembers_insert_name habsent,
    typeFault_insert_name habsent]
  cases members.find? fun member => member.1 ∉ kind.allowedKeys source with
  | some member => rfl
  | none =>
    cases hread : WrittenConfig.ofMembers members with
    | error mismatch => rfl
    | ok written =>
      exact build_withName hkind (WrittenConfig.name_eq_none habsent hread)
        hname file

theorem ofConfig_insert_name (habsent : members.get? "name" = none)
    (value : Json) :
    Kind.ofConfig (.object (members.insert "name" value)) =
      Kind.ofConfig (.object members) := by
  have htype : (members.insert "name" value).get? "type" =
      members.get? "type" := by
    rw [Members.insert_eq_append habsent, Members.get?_append]
    exact Option.or_none
  rw [Kind.ofConfig, Kind.ofConfig]
  simp only [Json.get?, htype]

/-- The name of a config is the one that is written. -/
theorem exists_written_of_normalize {source : Source} {file : String}
    {config : Config}
    (hread : normalize (.object members) kind source file = .ok config) :
    ∃ written, WrittenConfig.ofMembers members = .ok written ∧
      config.name = written.name ∧ config.name ≠ some "" := by
  obtain ⟨others, written, hmembers, hwritten, hbuild⟩ :=
    exists_build_of_normalize hread
  cases hmembers
  rw [build] at hbuild
  split at hbuild
  · cases hbuild
  · rename_i hname
    obtain ⟨details, -, rfl⟩ := Text.exists_of_map_eq_ok hbuild
    exact ⟨written, hwritten, rfl, hname⟩

end SqlWorkflow.Action
