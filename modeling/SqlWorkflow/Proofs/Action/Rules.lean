import SqlWorkflow.Action.Normalize
import SqlWorkflow.Proofs.Action.Fields

/-!
# The rules for configs

The rules across the fields of a config, said of what is written. Each reader of
normalization succeeds just when the rules that it checks are obeyed, and then
gives what follows from the written config.
-/

namespace SqlWorkflow

/-! ## Computations that succeed -/

/-- A check before a computation: it must pass. -/
theorem guard_eq_ok_iff {ε α : Type} {p : Prop} [Decidable p] {e : ε}
    {rest : Except ε α} {a : α} :
    (if p then .error e else rest) = .ok a ↔ ¬ p ∧ rest = .ok a := by
  by_cases h : p
  · rw [if_pos h]
    exact iff_of_false nofun fun hpass => hpass.1 h
  · rw [if_neg h]
    exact (and_iff_right h).symm

theorem map_eq_ok_iff {ε α β : Type} {f : α → β} {e : Except ε α} {b : β} :
    e.map f = .ok b ↔ ∃ a, e = .ok a ∧ f a = b := by
  refine ⟨Text.exists_of_map_eq_ok, ?_⟩
  rintro ⟨a, rfl, rfl⟩
  rfl

theorem mapError_eq_ok_iff {ε ε' α : Type} {f : ε → ε'} {e : Except ε α}
    {a : α} : e.mapError f = .ok a ↔ e = .ok a := by
  cases e with
  | error => exact iff_of_false nofun nofun
  | ok b =>
    exact ⟨fun h => congrArg Except.ok (Except.ok.inj h),
      fun h => congrArg Except.ok (Except.ok.inj h)⟩

namespace Action

/-! ## Rules -/

/-- The groups of key columns that data checks ask for. -/
def WrittenChecks.groups (written : WrittenChecks) : List (List String) :=
  (written.uniqueKey.map ([·])).getD (written.uniqueKeys.getD [])

/-- The rules for the data checks of a config: the groups of key columns have
one form, and none is empty. -/
structure WrittenChecks.Obeys (written : WrittenChecks) : Prop where
  oneForm : written.uniqueKey = none ∨ written.uniqueKeys = none
  columns : [] ∉ written.groups

/-- The rules for a warehouse option with a key of its own. -/
structure OptionObeys (kind : Kind) (materialized : Bool)
    (partitionBy : Option String) (free : Dictionary String)
    (option : String) : Prop where
  partitioned : partitionBy ≠ none
  stored : kind = .view → materialized = true
  once : option ∉ free.map Prod.fst

/-- The rules for the warehouse options of a table. -/
structure WrittenBigQuery.Obeys (kind : Kind) (materialized : Bool)
    (written : WrittenBigQuery) : Prop where
  expiration : written.partitionExpirationDays ≠ none →
    OptionObeys kind materialized written.partitionBy
      (written.additionalOptions.getD []) "partition_expiration_days"
  filter : written.requirePartitionFilter ≠ none →
    OptionObeys kind materialized written.partitionBy
      (written.additionalOptions.getD []) "require_partition_filter"

/-- The rules for what tables and operations have of their own. -/
structure WrittenConfig.ObeysOwn (kind : Kind)
    (written : WrittenConfig) : Prop where
  materialized : written.materialized ≠ none → kind = .view
  uniqueKey : written.uniqueKey ≠ none → kind = .incremental
  onSchemaChange : written.onSchemaChange ≠ none → kind = .incremental
  columns : written.uniqueKey ≠ some []
  bigquery : ∀ options ∈ written.bigquery,
    options.Obeys kind (written.materialized.getD false)
  checks : ∀ checks ∈ written.checks, checks.Obeys

/-- The rules for the file that an action is read from. -/
def FileObeys (kind : Kind) (filename : Option String) : Prop :=
  match kind with
  | .declaration => filename = none
  | .notebook | .dataPreparation => ∃ name ∈ filename, name ≠ ""
  | _ => True

/-- The rules for the name of an action. -/
structure NameObeys (kind : Kind) (source : Source)
    (name : Option String) : Prop where
  notEmpty : name ≠ some ""
  declaration : kind = .declaration → source ≠ .block → name ≠ none

/-- The rules across the fields of a config. -/
structure WrittenConfig.Obeys (kind : Kind) (source : Source)
    (written : WrittenConfig) : Prop where
  name : NameObeys kind source written.name
  file : FileObeys kind written.filename
  own : written.ObeysOwn kind

/-! ## What a config becomes -/

def Checks.ofWritten (written : WrittenChecks) : Checks :=
  ⟨written.groups, written.nonNull.getD [], written.rowConditions.getD []⟩

theorem readChecks_none : readChecks none = .ok .none := rfl

theorem readChecks_some_eq_ok_iff {written : WrittenChecks} {checks : Checks} :
    readChecks (some written) = .ok checks ↔
      written.Obeys ∧ Checks.ofWritten written = checks := by
  have hempty : written.groups.any List.isEmpty = true ↔
      [] ∈ written.groups := by
    rw [List.any_eq_true]
    constructor
    · rintro ⟨group, hmem, hempty⟩
      exact List.isEmpty_iff.1 hempty ▸ hmem
    · exact fun hmem => ⟨[], hmem, rfl⟩
  rw [readChecks]
  split
  · rename_i hone hmany
    refine iff_of_false nofun ?_
    rintro ⟨⟨hform | hform, -⟩, -⟩
    · cases hone.symm.trans hform
    · cases hmany.symm.trans hform
  · rename_i hforms
    have hone : written.uniqueKey = none ∨ written.uniqueKeys = none := by
      cases hone : written.uniqueKey with
      | none => exact .inl rfl
      | some key =>
        cases hmany : written.uniqueKeys with
        | none => exact .inr rfl
        | some keys => exact absurd hmany (hforms key keys hone)
    refine guard_eq_ok_iff.trans ?_
    rw [Except.ok.injEq]
    exact and_congr_left fun _ =>
      ⟨fun h => ⟨hone, mt hempty.2 h⟩, fun h => mt hempty.1 h.columns⟩

theorem TypedOption.check_eq_ok_iff {o : TypedOption} {kind : Kind}
    {materialized : Bool} {partitionBy : Option String}
    {free : Dictionary String} :
    o.check kind materialized partitionBy.isSome free = .ok () ↔
      (o.isSet = true →
        OptionObeys kind materialized partitionBy free o.option) := by
  rw [check]
  cases o.isSet with
  | false => exact iff_of_true rfl nofun
  | true =>
    simp only [Bool.not_true, Bool.false_eq_true, if_false, guard_eq_ok_iff,
      Dictionary.contains_eq_true_iff, forall_const]
    constructor
    · rintro ⟨honce, hview, hpartitioned, -⟩
      refine ⟨?_, ?_, honce⟩
      · rintro rfl
        exact hpartitioned rfl
      · intro hkind
        simpa [hkind] using hview
    · rintro ⟨hpartitioned, hstored, honce⟩
      refine ⟨honce, ?_, ?_, trivial⟩
      · rintro ⟨hkind, hvirtual⟩
        rw [hstored hkind] at hvirtual
        cases hvirtual
      · cases partitionBy with
        | none => exact absurd rfl hpartitioned
        | some => nofun

def BigQueryOptions.ofWritten (written : WrittenBigQuery) :
    BigQueryOptions where
  partitionBy := written.partitionBy
  clusterBy := written.clusterBy.getD []
  updatePartitionFilter := written.updatePartitionFilter
  labels := written.labels.getD []
  partitionExpirationDays := written.partitionExpirationDays
  requirePartitionFilter := written.requirePartitionFilter
  additionalOptions := written.additionalOptions.getD []

theorem readBigQuery_eq_ok_iff {kind : Kind} {materialized : Bool}
    {written : WrittenBigQuery} {options : BigQueryOptions} :
    readBigQuery kind materialized written = .ok options ↔
      written.Obeys kind materialized ∧
        BigQueryOptions.ofWritten written = options := by
  rw [readBigQuery]
  split
  · rename_i hexpiration
    refine iff_of_false nofun ?_
    rintro ⟨hobeys, -⟩
    cases hexpiration.symm.trans (TypedOption.check_eq_ok_iff.2 fun h =>
      hobeys.expiration (Option.isSome_iff_ne_none.1 h))
  · rename_i hexpiration
    split
    · rename_i hfilter
      refine iff_of_false nofun ?_
      rintro ⟨hobeys, -⟩
      cases hfilter.symm.trans (TypedOption.check_eq_ok_iff.2 fun h =>
        hobeys.filter (Option.isSome_iff_ne_none.1 h))
    · rename_i hfilter
      rw [TypedOption.check_eq_ok_iff, Option.isSome_iff_ne_none]
        at hexpiration hfilter
      rw [Except.ok.injEq]
      exact (and_iff_right ⟨hexpiration, hfilter⟩).symm

def TableConfig.ofWritten (kind : Kind)
    (written : WrittenConfig) : TableConfig where
  type := kind.tableType
  isProtected := written.isProtected.getD false
  materialized := written.materialized.getD false
  uniqueKey := written.uniqueKey.getD []
  onSchemaChange := written.onSchemaChange
  checks := written.checks.elim .none Checks.ofWritten
  bigquery := written.bigquery.map BigQueryOptions.ofWritten

theorem forall_mem_some {α : Type} {p : α → Prop}
    {a : α} : (∀ b ∈ some a, p b) ↔ p a := by
  refine ⟨fun h => h a rfl, ?_⟩
  rintro h _ ⟨⟩
  exact h

theorem readChecks_eq_ok_iff {written : Option WrittenChecks}
    {checks : Checks} :
    readChecks written = .ok checks ↔
      (∀ form ∈ written, form.Obeys) ∧
        written.elim .none Checks.ofWritten = checks := by
  cases written with
  | none =>
    rw [readChecks_none, Except.ok.injEq]
    exact (and_iff_right nofun).symm
  | some form =>
    rw [readChecks_some_eq_ok_iff, forall_mem_some]
    rfl

theorem mapM_readBigQuery_eq_ok_iff {kind : Kind} {materialized : Bool}
    {written : Option WrittenBigQuery} {options : Option BigQueryOptions} :
    written.mapM (readBigQuery kind materialized) = .ok options ↔
      (∀ form ∈ written, form.Obeys kind materialized) ∧
        written.map BigQueryOptions.ofWritten = options := by
  cases written with
  | none =>
    change Except.ok none = _ ↔ _
    rw [Except.ok.injEq]
    exact (and_iff_right nofun).symm
  | some form =>
    change (readBigQuery kind materialized form).map some = _ ↔ _
    rw [map_eq_ok_iff, forall_mem_some]
    simp only [readBigQuery_eq_ok_iff]
    constructor
    · rintro ⟨_, ⟨hobeys, rfl⟩, rfl⟩
      exact ⟨hobeys, rfl⟩
    · rintro ⟨hobeys, rfl⟩
      exact ⟨_, ⟨hobeys, rfl⟩, rfl⟩

theorem incrementalOption?_eq_none_iff {written : WrittenConfig} :
    incrementalOption? written = none ↔
      written.uniqueKey = none ∧ written.onSchemaChange = none := by
  rw [incrementalOption?]
  cases written.uniqueKey <;> cases written.onSchemaChange <;> simp

theorem readTable_eq_ok_iff {kind : Kind} {written : WrittenConfig}
    {table : TableConfig} :
    readTable kind written = .ok table ↔
      written.ObeysOwn kind ∧ TableConfig.ofWritten kind written = table := by
  rw [readTable]
  refine guard_eq_ok_iff.trans ?_
  split
  · rename_i option hoption
    refine iff_of_false (fun h => nomatch h.2) ?_
    rintro ⟨hobeys, -⟩
    split at hoption
    · cases hoption
    · rename_i hkind
      have hkey : written.uniqueKey = none :=
        Classical.not_not.1 (mt hobeys.uniqueKey hkind)
      have hchange : written.onSchemaChange = none :=
        Classical.not_not.1 (mt hobeys.onSchemaChange hkind)
      cases hoption.symm.trans
        (incrementalOption?_eq_none_iff.2 ⟨hkey, hchange⟩)
  · rename_i hoption
    have hincremental : kind ≠ .incremental →
        written.uniqueKey = none ∧ written.onSchemaChange = none := by
      intro hkind
      rw [if_neg hkind] at hoption
      exact incrementalOption?_eq_none_iff.1 hoption
    rw [guard_eq_ok_iff]
    split
    · rename_i hbigquery
      refine iff_of_false (fun h => nomatch h.2) ?_
      rintro ⟨hobeys, -⟩
      cases hbigquery.symm.trans
        (mapM_readBigQuery_eq_ok_iff.2 ⟨hobeys.bigquery, rfl⟩)
    · rename_i bigquery hbigquery
      obtain ⟨hoptions, rfl⟩ := mapM_readBigQuery_eq_ok_iff.1 hbigquery
      rw [map_eq_ok_iff]
      simp only [readChecks_eq_ok_iff]
      constructor
      · rintro ⟨hmaterialized, hcolumns, _, ⟨hchecks, rfl⟩, rfl⟩
        refine ⟨⟨?_, ?_, ?_, hcolumns, hoptions, hchecks⟩, rfl⟩
        · exact fun hset => Classical.not_not.1 fun hkind =>
            hmaterialized ⟨Option.isSome_iff_ne_none.2 hset, hkind⟩
        · exact fun hset => Classical.not_not.1 fun hkind =>
            hset (hincremental hkind).1
        · exact fun hset => Classical.not_not.1 fun hkind =>
            hset (hincremental hkind).2
      · rintro ⟨hobeys, rfl⟩
        refine ⟨?_, hobeys.columns, _, ⟨hobeys.checks, rfl⟩, rfl⟩
        rintro ⟨hset, hkind⟩
        exact hkind (hobeys.materialized (Option.isSome_iff_ne_none.1 hset))

/-- A config sets only what tables and operations have if it is theirs. -/
structure WrittenConfig.Fits (kind : Kind)
    (written : WrittenConfig) : Prop where
  materialized : written.materialized ≠ none → kind.isTableLike = true
  uniqueKey : written.uniqueKey ≠ none → kind.isTableLike = true
  onSchemaChange : written.onSchemaChange ≠ none → kind.isTableLike = true
  bigquery : written.bigquery ≠ none → kind.isTableLike = true
  checks : written.checks ≠ none → kind.isTableLike = true ∨ kind = .operation

theorem WrittenConfig.Fits.obeysOwn {kind : Kind} {written : WrittenConfig}
    (h : written.Fits kind) (hkind : kind.isTableLike = false)
    (hchecks : ∀ checks ∈ written.checks, checks.Obeys) :
    written.ObeysOwn kind := by
  have hnot : kind.isTableLike ≠ true := Bool.eq_false_iff.1 hkind
  have hunique : written.uniqueKey = none :=
    Classical.not_not.1 (mt h.uniqueKey hnot)
  have hbigquery : written.bigquery = none :=
    Classical.not_not.1 (mt h.bigquery hnot)
  refine ⟨fun hset => absurd (h.materialized hset) hnot,
    fun hset => absurd (h.uniqueKey hset) hnot,
    fun hset => absurd (h.onSchemaChange hset) hnot, ?_, ?_, hchecks⟩
  · rw [hunique]
    nofun
  · rw [hbigquery]
    nofun

theorem WrittenConfig.Fits.checks_obey {kind : Kind} {written : WrittenConfig}
    (h : written.Fits kind) (hkind : kind.isTableLike = false)
    (hoperation : kind ≠ .operation) :
    ∀ checks ∈ written.checks, checks.Obeys := by
  have hnone : written.checks = none := by
    refine Classical.not_not.1 fun hset => ?_
    rcases h.checks hset with htable | heq
    · cases hkind.symm.trans htable
    · exact hoperation heq
  rw [hnone]
  nofun

def Details.ofWritten (kind : Kind) (written : WrittenConfig) : Details :=
  match kind with
  | .table | .view | .incremental => .table (TableConfig.ofWritten kind written)
  | .operation =>
    .operation
      ⟨written.hasOutput.getD false, written.checks.elim .none Checks.ofWritten⟩
  | .assertion => .assertion
  | .declaration => .declaration
  | .notebook => .notebook
  | .dataPreparation => .dataPreparation

theorem nonempty_iff {filename : Option String} :
    ¬ (filename.getD "").isEmpty = true ↔ ∃ name ∈ filename, name ≠ "" := by
  cases filename with
  | none => exact iff_of_false (fun h => h rfl) nofun
  | some name => simp [String.isEmpty_iff]

theorem readDetails_eq_ok_iff {kind : Kind} {written : WrittenConfig}
    (hfits : written.Fits kind) {file : String} {details : Details} :
    readDetails kind written file = .ok details ↔
      (FileObeys kind written.filename ∧ written.ObeysOwn kind) ∧
        Details.ofWritten kind written = details := by
  cases kind with
  | table | view | incremental =>
    change Except.map _ _ = _ ↔ (True ∧ _) ∧ _
    rw [map_eq_ok_iff, true_and]
    simp only [mapError_eq_ok_iff, readTable_eq_ok_iff]
    constructor
    · rintro ⟨_, ⟨hobeys, rfl⟩, rfl⟩
      exact ⟨hobeys, rfl⟩
    · rintro ⟨hobeys, rfl⟩
      exact ⟨_, ⟨hobeys, rfl⟩, rfl⟩
  | operation =>
    change Except.map _ _ = _ ↔ (True ∧ _) ∧ _
    rw [map_eq_ok_iff, true_and]
    simp only [mapError_eq_ok_iff, readChecks_eq_ok_iff]
    constructor
    · rintro ⟨_, ⟨hchecks, rfl⟩, rfl⟩
      exact ⟨hfits.obeysOwn rfl hchecks, rfl⟩
    · rintro ⟨hobeys, rfl⟩
      exact ⟨_, ⟨hobeys.checks, rfl⟩, rfl⟩
  | assertion =>
    have hobeys := hfits.obeysOwn rfl (hfits.checks_obey rfl nofun)
    rw [readDetails, Except.ok.injEq]
    exact (and_iff_right ⟨trivial, hobeys⟩).symm
  | declaration =>
    have hobeys := hfits.obeysOwn rfl (hfits.checks_obey rfl nofun)
    rw [readDetails, guard_eq_ok_iff, Except.ok.injEq,
      Option.not_isSome_iff_eq_none]
    exact and_congr_left fun _ => (and_iff_left hobeys).symm
  | notebook | dataPreparation =>
    have hobeys := hfits.obeysOwn rfl (hfits.checks_obey rfl nofun)
    rw [readDetails, guard_eq_ok_iff, Except.ok.injEq, nonempty_iff]
    exact and_congr_left fun _ => (and_iff_left hobeys).symm

def Config.ofWritten (kind : Kind) (written : WrittenConfig) : Config where
  kind := kind
  name := written.name
  schema := written.schema
  database := written.database
  description := written.description
  tags := written.tags.getD []
  disabled := written.disabled.getD false
  dependencies := written.dependencies.getD []
  hermetic := written.hermetic
  dependOnDependencyAssertions :=
    written.dependOnDependencyAssertions.getD false
  columns := written.columns.getD []
  filename := written.filename
  details := Details.ofWritten kind written

theorem build_eq_ok_iff {kind : Kind} {written : WrittenConfig}
    (hfits : written.Fits kind) {file : String} {config : Config} :
    build kind written file = .ok config ↔
      (written.name ≠ some "" ∧ FileObeys kind written.filename ∧
        written.ObeysOwn kind) ∧
        Config.ofWritten kind written = config := by
  rw [build, guard_eq_ok_iff, map_eq_ok_iff, and_assoc]
  refine and_congr_right fun _ => ?_
  simp only [readDetails_eq_ok_iff hfits]
  constructor
  · rintro ⟨_, ⟨hobeys, rfl⟩, rfl⟩
    exact ⟨hobeys, rfl⟩
  · rintro ⟨hobeys, rfl⟩
    exact ⟨_, ⟨hobeys, rfl⟩, rfl⟩

end Action

end SqlWorkflow
