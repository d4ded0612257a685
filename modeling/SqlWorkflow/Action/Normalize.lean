import SqlWorkflow.Action.Config
import SqlWorkflow.Action.Written
import SqlWorkflow.CompileError
import SqlWorkflow.Text.EditDistance

/-!
# Normalization

Every action config, wherever it was written, is checked here against the closed
schema of its kind: first the keys, then the form of every value, then the rules
across fields. The first rule that is broken is reported.
-/

namespace SqlWorkflow.Action

/-- The fault of a config of the wrong form: that of the first member which is
wrong by itself, if there is one. -/
def typeFault (kind : Kind) (mismatch : Json.Mismatch) : Json.Members → Fault
  | [] => .mismatch kind mismatch
  | (key, value) :: rest =>
    match WrittenConfig.ofMembers [(key, value)] with
    | .error e => .wrongValue kind key value.typeName e
    | .ok _ => typeFault kind mismatch rest

def readChecks : Option WrittenChecks → Except Fault Checks
  | none => .ok .none
  | some written =>
    match written.uniqueKey, written.uniqueKeys with
    | some _, some _ => .error .bothUniqueKeys
    | one, many =>
      let groups := (one.map ([·])).getD (many.getD [])
      if groups.any List.isEmpty then .error .emptyUniqueKeyGroup
      else .ok ⟨groups, written.nonNull.getD [], written.rowConditions.getD []⟩

/-- A warehouse option that has a key of its own besides the free options. -/
structure TypedOption where
  isSet : Bool
  key : String
  option : String

def TypedOption.check (o : TypedOption) (kind : Kind)
    (materialized partitioned : Bool)
    (free : Dictionary String) : Except Fault Unit :=
  if !o.isSet then .ok ()
  else if free.contains o.option then .error (.optionTwice o.option o.key)
  else if kind = .view ∧ !materialized then .error (.optionOfView o.key)
  else if !partitioned then .error (.optionUnpartitioned o.key)
  else .ok ()

def readBigQuery (kind : Kind) (materialized : Bool)
    (written : WrittenBigQuery) : Except Fault BigQueryOptions :=
  let free := written.additionalOptions.getD []
  let partitioned := written.partitionBy.isSome
  let expiration : TypedOption :=
    ⟨written.partitionExpirationDays.isSome, "partitionExpirationDays",
      "partition_expiration_days"⟩
  let filter : TypedOption :=
    ⟨written.requirePartitionFilter.isSome, "requirePartitionFilter",
      "require_partition_filter"⟩
  match expiration.check kind materialized partitioned free with
  | .error e => .error e
  | .ok () =>
    match filter.check kind materialized partitioned free with
    | .error e => .error e
    | .ok () =>
      .ok
        { partitionBy := written.partitionBy
          clusterBy := written.clusterBy.getD []
          updatePartitionFilter := written.updatePartitionFilter
          labels := written.labels.getD []
          partitionExpirationDays := written.partitionExpirationDays
          requirePartitionFilter := written.requirePartitionFilter
          additionalOptions := free }

/-- The kind of table that a kind of action makes. -/
def Kind.tableType : Kind → TableType
  | .view => .view
  | .incremental => .incremental
  | _ => .table

/-- The option for incremental tables that a config sets first, if any. -/
def incrementalOption? (written : WrittenConfig) : Option String :=
  if written.uniqueKey.isSome then some "uniqueKey"
  else if written.onSchemaChange.isSome then some "onSchemaChange"
  else none

/-- The rules for tables, views and incremental tables. -/
def readTable (kind : Kind)
    (written : WrittenConfig) : Except Fault TableConfig :=
  let materialized := written.materialized.getD false
  if written.materialized.isSome ∧ kind ≠ .view then
    .error (.materializedTable kind)
  else
    match (if kind = .incremental then none else incrementalOption? written)
      with
    | some option => .error (.incrementalOption kind option)
    | none =>
      if written.uniqueKey = some [] then .error .emptyUniqueKey
      else
        match written.bigquery.mapM (readBigQuery kind materialized) with
        | .error e => .error e
        | .ok bigquery =>
          (readChecks written.checks).map fun checks =>
            { type := kind.tableType
              isProtected := written.isProtected.getD false
              materialized := materialized
              uniqueKey := written.uniqueKey.getD []
              onSchemaChange := written.onSchemaChange
              checks := checks
              bigquery := bigquery }

/-- The part of a config that depends on the kind. -/
def readDetails (kind : Kind) (written : WrittenConfig) (file : String) :
    Except CompileError Details :=
  let refuse (fault : Fault) : CompileError := .invalidActionConfig file fault
  match kind with
  | .table | .view | .incremental =>
    ((readTable kind written).mapError refuse).map .table
  | .operation =>
    ((readChecks written.checks).mapError refuse).map fun checks =>
      .operation ⟨written.hasOutput.getD false, checks⟩
  | .assertion => .ok .assertion
  | .declaration =>
    if written.filename.isSome then
      .error (.declarationWithBody file (written.name.getD ""))
    else .ok .declaration
  | .notebook =>
    if (written.filename.getD "").isEmpty then
      .error (refuse (.missingFileName kind))
    else .ok .notebook
  | .dataPreparation =>
    if (written.filename.getD "").isEmpty then
      .error (refuse (.missingFileName kind))
    else .ok .dataPreparation

def build (kind : Kind) (written : WrittenConfig)
    (file : String) : Except CompileError Config :=
  if written.name = some "" then
    .error (.invalidActionConfig file (.emptyName kind))
  else
    (readDetails kind written file).map fun details =>
      { kind := kind
        name := written.name
        schema := written.schema
        database := written.database
        description := written.description
        tags := written.tags.getD []
        disabled := written.disabled.getD false
        dependencies := written.dependencies.getD []
        hermetic := written.hermetic
        dependOnDependencyAssertions :=
          written.dependOnDependencyAssertions.getD false
        columns := written.columns.getD []
        filename := written.filename
        details := details }

def normalize (value : Json) (kind : Kind) (source : Source) (file : String) :
    Except CompileError Config :=
  match value with
  | .object members =>
    match members.find? fun member => member.1 ∉ kind.allowedKeys source with
    | some (key, v) =>
      .error (.invalidActionConfig file (.unexpectedKey kind key v.typeName
        (Text.suggestion? key (kind.allowedKeys source))))
    | none =>
      match WrittenConfig.ofMembers members with
      | .error e =>
        .error (.invalidActionConfig file (typeFault kind e members))
      | .ok written =>
        if kind = .declaration ∧ source ≠ .block ∧ written.name = none then
          .error (.invalidActionConfig file (.unnamedDeclaration kind))
        else build kind written file
  | other =>
    .error (.invalidActionConfig file (.notAnObject kind other.typeName))

end SqlWorkflow.Action
