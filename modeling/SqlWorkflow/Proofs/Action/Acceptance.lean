import SqlWorkflow.Proofs.Action.Kinds
import SqlWorkflow.Proofs.Action.Rules

/-!
# Which configs are accepted

A config is accepted just when it is an object with keys of its kind only, its
values have the right form, and it obeys the rules across its fields. What it
becomes follows from what is written: neither the order of its keys nor the file
has a part in it, and a field that is null might as well be left out.
-/

namespace SqlWorkflow.Action

/-! ## Keys -/

theorem Kind.mem_ownKeys_of_mem_allowedKeys {kind : Kind} {source : Source}
    {key : String} (h : key ∈ kind.allowedKeys source)
    (hcommon : key ∉ commonKeys) (htype : key ≠ "type")
    (hfile : key ≠ "filename") : key ∈ kind.ownKeys := by
  rw [allowedKeys, List.mem_append, List.mem_append, List.mem_append] at h
  rcases h with h | h | h | h
  · exact absurd h hcommon
  · exact h
  · split at h
    · exact absurd (List.mem_singleton.1 h) htype
    · cases h
  · split at h
    · exact absurd (List.mem_singleton.1 h) hfile
    · cases h

/-- Only tables and operations have keys of their own, and operations have
few. -/
theorem Kind.isTableLike_or_operation {kind : Kind} {key : String}
    (h : key ∈ kind.ownKeys) : kind.isTableLike = true ∨ kind = .operation := by
  cases kind <;> first | exact .inl rfl | exact .inr rfl | cases h

theorem Kind.isTableLike_of_mem_ownKeys {kind : Kind} {key : String}
    (hkey : key ∉ ownKeys .operation)
    (h : key ∈ kind.ownKeys) : kind.isTableLike = true := by
  rcases isTableLike_or_operation h with htable | rfl
  · exact htable
  · exact absurd h hkey

namespace WrittenConfig

variable {kind : Kind} {source : Source} {members : Json.Members}
  {written : WrittenConfig}

/-- A field that neither has another name nor belongs to all kinds is set only
by kinds that it belongs to. -/
theorem mem_ownKeys_of_ne_none
    (hallowed : ∀ member ∈ members, member.1 ∈ kind.allowedKeys source)
    (hread : ofMembers members = .ok written) {α : Type}
    {part : WrittenConfig → Option α} {key : String}
    (hpart : ∀ field source target, part (taking field source target) =
      pick field key (part source) (part target)) (hempty : part empty = none)
    (halias : ∀ pair ∈ layout.aliases, pair.2 ≠ key)
    (hown : key ∉ Kind.commonKeys ∧ key ≠ "type" ∧ key ≠ "filename")
    (hset : part written ≠ none) : key ∈ kind.ownKeys := by
  have hkey : key ∈ kind.allowedKeys source := by
    refine Classical.not_not.1 fun hnot => hset ?_
    refine ((keeps_of_taking hpart).readMembers (fun member hmem hfield => ?_)
      hread).trans hempty
    exact absurd (eq_of_fieldOf?_eq_some halias hfield ▸ hallowed member hmem)
      hnot
  exact Kind.mem_ownKeys_of_mem_allowedKeys hkey hown.1 hown.2.1 hown.2.2

theorem fits_of_allowedKeys
    (hallowed : ∀ member ∈ members, member.1 ∈ kind.allowedKeys source)
    (hread : ofMembers members = .ok written) : written.Fits kind where
  materialized hset :=
    Kind.isTableLike_of_mem_ownKeys (by decide) (mem_ownKeys_of_ne_none hallowed
      hread (fun _ _ _ => rfl) rfl (by decide) (by decide) hset)
  uniqueKey hset :=
    Kind.isTableLike_of_mem_ownKeys (by decide) (mem_ownKeys_of_ne_none hallowed
      hread (fun _ _ _ => rfl) rfl (by decide) (by decide) hset)
  onSchemaChange hset :=
    Kind.isTableLike_of_mem_ownKeys (by decide) (mem_ownKeys_of_ne_none hallowed
      hread (fun _ _ _ => rfl) rfl (by decide) (by decide) hset)
  bigquery hset :=
    Kind.isTableLike_of_mem_ownKeys (by decide) (mem_ownKeys_of_ne_none hallowed
      hread (fun _ _ _ => rfl) rfl (by decide) (by decide) hset)
  checks hset := Kind.isTableLike_or_operation (mem_ownKeys_of_ne_none hallowed
    hread (fun _ _ _ => rfl) rfl (by decide) (by decide) hset)

/-- The members of a config may come in any order. -/
theorem ofMembers_perm {others : Json.Members} (hperm : members.Perm others)
    (hread : ofMembers members = .ok written) :
    ofMembers others = .ok written :=
  Json.RecordSchema.readMembers_perm independent_layout hperm hread

end WrittenConfig

/-! ## Configs that are accepted -/

/-- The value is an object with keys of its kind only, its values have the right
form, and it obeys the rules. -/
def Acceptable (value : Json) (kind : Kind) (source : Source)
    (written : WrittenConfig) : Prop :=
  ∃ members, value = .object members ∧
    (∀ member ∈ members, member.1 ∈ kind.allowedKeys source) ∧
    WrittenConfig.ofMembers members = .ok written ∧ written.Obeys kind source

theorem normalize_eq_ok_iff {value : Json} {kind : Kind} {source : Source}
    {file : String} {config : Config} :
    normalize value kind source file = .ok config ↔
      ∃ written, Acceptable value kind source written ∧
        Config.ofWritten kind written = config := by
  cases value with
  | object members =>
    have hkeys : (members.find? fun member => member.1 ∉
        kind.allowedKeys source) = none ↔
        ∀ member ∈ members, member.1 ∈ kind.allowedKeys source := by
      simp
    rw [normalize]
    split
    · rename_i hfind
      refine iff_of_false nofun ?_
      rintro ⟨written, ⟨_, ⟨rfl⟩, hallowed, -⟩, -⟩
      cases hfind.symm.trans (hkeys.2 hallowed)
    · rename_i hfind
      have hallowed := hkeys.1 hfind
      split
      · rename_i hread
        refine iff_of_false nofun ?_
        rintro ⟨written, ⟨_, ⟨rfl⟩, -, hwritten, -⟩, -⟩
        cases hread.symm.trans hwritten
      · rename_i written hread
        rw [guard_eq_ok_iff,
          build_eq_ok_iff (WrittenConfig.fits_of_allowedKeys hallowed hread)]
        constructor
        · rintro ⟨hnamed, ⟨hname, hfile, hown⟩, hconfig⟩
          have hdeclaration : kind = .declaration → source ≠ .block →
              written.name ≠ none :=
            fun hkind hsource hnone => hnamed ⟨hkind, hsource, hnone⟩
          exact ⟨written,
            ⟨members, rfl, hallowed, hread, ⟨hname, hdeclaration⟩, hfile, hown⟩,
            hconfig⟩
        · rintro ⟨_, ⟨_, ⟨rfl⟩, -, hwritten, hname, hfile, hown⟩, hconfig⟩
          cases hread.symm.trans hwritten
          exact ⟨fun h => hname.declaration h.1 h.2.1 h.2.2,
            ⟨hname.notEmpty, hfile, hown⟩, hconfig⟩
  | null | bool _ | number _ | string _ | array _ =>
    refine iff_of_false nofun ?_
    rintro ⟨written, ⟨members, hobject, -⟩, -⟩
    cases hobject

/-- The rules for the warehouse options of a table, as they are kept. -/
structure BigQueryOptions.Obeys (kind : Kind) (materialized : Bool)
    (options : BigQueryOptions) : Prop where
  expiration : options.partitionExpirationDays ≠ none →
    OptionObeys kind materialized options.partitionBy options.additionalOptions
      "partition_expiration_days"
  filter : options.requirePartitionFilter ≠ none →
    OptionObeys kind materialized options.partitionBy options.additionalOptions
      "require_partition_filter"

/-- The rules for tables, as they are kept. -/
structure TableConfig.Obeys (kind : Kind) (table : TableConfig) : Prop where
  materialized : table.materialized = true → kind = .view
  uniqueKey : table.uniqueKey ≠ [] → kind = .incremental
  onSchemaChange : table.onSchemaChange ≠ none → kind = .incremental
  bigquery : ∀ options ∈ table.bigquery, options.Obeys kind table.materialized

/-- The rules for a config, as they are kept. -/
structure Config.Obeys (kind : Kind) (source : Source)
    (config : Config) : Prop where
  ofKind : config.kind = kind
  name : NameObeys kind source config.name
  file : FileObeys kind config.filename
  suit : config.details.Suit kind
  table : ∀ table, config.details = .table table → table.Obeys kind
  checks : [] ∉ config.checks.uniqueKeys

theorem WrittenConfig.ObeysOwn.table {kind : Kind} {written : WrittenConfig}
    (h : written.ObeysOwn kind) :
    (TableConfig.ofWritten kind written).Obeys kind where
  materialized hset := by
    apply h.materialized
    intro hnone
    rw [TableConfig.ofWritten, hnone] at hset
    cases hset
  uniqueKey hset := by
    apply h.uniqueKey
    intro hnone
    rw [TableConfig.ofWritten, hnone] at hset
    exact hset rfl
  onSchemaChange := h.onSchemaChange
  bigquery options hoptions := by
    obtain ⟨form, hform, rfl⟩ := Option.map_eq_some_iff.1 hoptions
    exact ⟨(h.bigquery form hform).expiration, (h.bigquery form hform).filter⟩

theorem WrittenConfig.ObeysOwn.groups {kind : Kind} {written : WrittenConfig}
    (h : written.ObeysOwn kind) :
    [] ∉ (written.checks.elim .none Checks.ofWritten).uniqueKeys := by
  cases hchecks : written.checks with
  | none => exact List.not_mem_nil
  | some form => exact (h.checks form hchecks).columns

/-- A config that was accepted carries the rules that it obeys. -/
theorem obeys_of_normalize {value : Json} {kind : Kind} {source : Source}
    {file : String} {config : Config}
    (h : normalize value kind source file = .ok config) :
    config.Obeys kind source := by
  obtain ⟨hkind, hsuit⟩ := kind_of_normalize h
  obtain ⟨written, ⟨members, -, -, -, hname, hfile, hown⟩, rfl⟩ :=
    normalize_eq_ok_iff.1 h
  refine ⟨hkind, hname, hfile, hsuit, ?_, ?_⟩
  · intro table htable
    cases kind <;> cases htable <;> exact hown.table
  · cases kind with
    | table | view | incremental | operation => exact hown.groups
    | assertion | declaration | notebook | dataPreparation =>
      exact List.not_mem_nil

theorem Acceptable.perm {members others : Json.Members} {kind : Kind}
    {source : Source} {written : WrittenConfig} (hperm : members.Perm others)
    (h : Acceptable (.object members) kind source written) :
    Acceptable (.object others) kind source written := by
  obtain ⟨_, ⟨rfl⟩, hallowed, hread, hobeys⟩ := h
  exact ⟨others, rfl, fun member hmem => hallowed member (hperm.mem_iff.2 hmem),
    WrittenConfig.ofMembers_perm hperm hread, hobeys⟩

theorem acceptable_null_iff {before after : Json.Members} {key : String}
    {kind : Kind} {source : Source} {written : WrittenConfig}
    (hkey : key ∈ kind.allowedKeys source)
    (hother : ∀ field, WrittenConfig.layout.fieldOf? key = some field →
      ∀ member ∈ before ++ after, WrittenConfig.layout.fieldOf? member.1 ≠
        some field) :
    Acceptable (.object (before ++ (key, .null) :: after)) kind source written ↔
      Acceptable (.object (before ++ after)) kind source written := by
  have hallowed : (∀ member ∈ before ++ (key, Json.null) :: after,
      member.1 ∈ kind.allowedKeys source) ↔
      ∀ member ∈ before ++ after, member.1 ∈ kind.allowedKeys source := by
    simp only [List.forall_mem_append, List.forall_mem_cons, hkey, true_and]
  constructor
  · rintro ⟨_, ⟨rfl⟩, hkeys, hread, hobeys⟩
    exact ⟨_, rfl, hallowed.1 hkeys,
      WrittenConfig.ofMembers_null hother ▸ hread, hobeys⟩
  · rintro ⟨_, ⟨rfl⟩, hkeys, hread, hobeys⟩
    exact ⟨_, rfl, hallowed.2 hkeys,
      (WrittenConfig.ofMembers_null hother).trans hread, hobeys⟩

/-- A config is accepted just when it is an object with keys of its kind only,
its values have the right form and it obeys the rules, and it carries those
rules then. What it becomes depends neither on the file nor on the order of its
keys, and a key with null for its value might as well be left out, unless
another key sets its field. -/
theorem normalize_accepts_iff (kind : Kind) (source : Source) (file : String) :
    (∀ value, (∃ config, normalize value kind source file = .ok config) ↔
      ∃ written, Acceptable value kind source written) ∧
      (∀ value config, normalize value kind source file = .ok config →
        config.Obeys kind source) ∧
      (∀ value config other, normalize value kind source other = .ok config ↔
        normalize value kind source file = .ok config) ∧
      (∀ members others config, members.Perm others →
        (normalize (.object members) kind source file = .ok config ↔
          normalize (.object others) kind source file = .ok config)) ∧
      ∀ before key after config, key ∈ kind.allowedKeys source →
        (∀ field, WrittenConfig.layout.fieldOf? key = some field →
          ∀ member ∈ before ++ after, WrittenConfig.layout.fieldOf? member.1 ≠
            some field) →
        (normalize (.object (before ++ (key, .null) :: after)) kind source
          file = .ok config ↔
          normalize (.object (before ++ after)) kind source file =
            .ok config) := by
  simp only [normalize_eq_ok_iff]
  refine ⟨?accepted, ?obeys, fun _ _ _ => trivial, ?perm, ?null⟩
  case accepted =>
    intro value
    exact ⟨fun ⟨_, written, hwritten, _⟩ => ⟨written, hwritten⟩,
      fun ⟨written, hwritten⟩ => ⟨_, written, hwritten, rfl⟩⟩
  case obeys =>
    rintro value config ⟨written, hwritten⟩
    exact obeys_of_normalize (normalize_eq_ok_iff.2 ⟨written, hwritten⟩ :
      normalize value kind source file = _)
  case perm =>
    intro members others config hperm
    exact ⟨fun ⟨written, hwritten, hconfig⟩ => ⟨written, hwritten.perm hperm,
      hconfig⟩, fun ⟨written, hwritten, hconfig⟩ =>
        ⟨written, hwritten.perm hperm.symm, hconfig⟩⟩
  case null =>
    intro before key after config hkey hother
    simp only [acceptable_null_iff hkey hother]

/-- A materialized view may ask for a filter on its partitions, and a field that
is null asks for nothing. -/
example :
    Acceptable (.object [("materialized", .bool true), ("bigquery", .object
      [("requirePartitionFilter", .bool true), ("partitionBy", .string "day")]),
      ("uniqueKey", .null)]) .view .script { WrittenConfig.empty with
      materialized := some true
      bigquery :=
        some ⟨some "day", none, none, none, none, some true, none⟩ } := by
  refine ⟨_, rfl, by decide, rfl, ⟨nofun, nofun⟩, trivial, fun _ => rfl,
    fun h => absurd rfl h, fun h => absurd rfl h, nofun, ?_, nofun⟩
  rintro _ ⟨⟩
  exact ⟨fun h => absurd rfl h,
    fun _ => ⟨nofun, fun _ => rfl, List.not_mem_nil⟩⟩

end SqlWorkflow.Action
