import SqlWorkflow.Action.Options
import SqlWorkflow.Json.Decode

/-!
# Configs as written

The typed form of an action config before any rule across fields is applied. It
has the fields of all kinds; which of them a kind may have is a matter of its
allowed keys.
-/

namespace SqlWorkflow.Action

open Json (Decoder RecordSchema)
open Json.Decode (string bool nat32 option list map firstOf oneOrMany variant)

structure WrittenChecks where
  uniqueKey : Option (List String)
  uniqueKeys : Option (List (List String))
  nonNull : Option (List String)
  rowConditions : Option (List String)
  deriving DecidableEq

def WrittenChecks.schema : RecordSchema WrittenChecks where
  name := "RawAssertions"
  fields := ["uniqueKey", "uniqueKeys", "nonNull", "rowConditions"]
  aliases := []
  strict := true
  empty := ⟨none, none, none, none⟩
  set field value record :=
    match field with
    | "uniqueKey" =>
      (option (list string) value).map fun x => { record with uniqueKey := x }
    | "uniqueKeys" =>
      (option (list (list string)) value).map fun x =>
        { record with uniqueKeys := x }
    | "nonNull" =>
      (option (oneOrMany string) value).map fun x =>
        { record with nonNull := x }
    | "rowConditions" =>
      (option (list string) value).map fun x =>
        { record with rowConditions := x }
    | _ => .ok record

structure WrittenBigQuery where
  partitionBy : Option String
  clusterBy : Option (List String)
  updatePartitionFilter : Option String
  labels : Option (Dictionary String)
  partitionExpirationDays : Option Nat
  requirePartitionFilter : Option Bool
  additionalOptions : Option (Dictionary String)
  deriving DecidableEq

def dictionary : Decoder (Dictionary String) := fun value =>
  (map string value).map Dictionary.ofList

def WrittenBigQuery.schema : RecordSchema WrittenBigQuery where
  name := "RawBigQuery"
  fields := ["partitionBy", "clusterBy", "updatePartitionFilter", "labels",
    "partitionExpirationDays", "requirePartitionFilter", "additionalOptions"]
  aliases := []
  strict := true
  empty := ⟨none, none, none, none, none, none, none⟩
  set field value record :=
    match field with
    | "partitionBy" =>
      (option string value).map fun x => { record with partitionBy := x }
    | "clusterBy" =>
      (option (list string) value).map fun x => { record with clusterBy := x }
    | "updatePartitionFilter" =>
      (option string value).map fun x =>
        { record with updatePartitionFilter := x }
    | "labels" =>
      (option dictionary value).map fun x => { record with labels := x }
    | "partitionExpirationDays" =>
      (option nat32 value).map fun x =>
        { record with partitionExpirationDays := x }
    | "requirePartitionFilter" =>
      (option bool value).map fun x =>
        { record with requirePartitionFilter := x }
    | "additionalOptions" =>
      (option dictionary value).map fun x =>
        { record with additionalOptions := x }
    | _ => .ok record

structure WrittenReference where
  name : Option String
  schema : Option String
  database : Option String
  includeDependentAssertions : Option Bool
  deriving DecidableEq

def WrittenReference.layout : RecordSchema WrittenReference where
  name := "DependencyTarget"
  fields := ["name", "schema", "database", "includeDependentAssertions"]
  aliases := [("dataset", "schema"), ("project", "database")]
  strict := true
  empty := ⟨none, none, none, none⟩
  set field value record :=
    match field with
    | "name" => (string value).map fun x => { record with name := some x }
    | "schema" => (option string value).map fun x => { record with schema := x }
    | "database" =>
      (option string value).map fun x => { record with database := x }
    | "includeDependentAssertions" =>
      (option bool value).map fun x =>
        { record with includeDependentAssertions := x }
    | _ => .ok record

/-- Reads a reference written as an object, or as the list of its parts from the
name on. -/
def referenceRecord : Decoder Reference := fun value =>
  match WrittenReference.layout.decode value with
  | .error e => .error e
  | .ok r =>
    match r.name with
    | some name =>
      .ok ⟨r.database, r.schema, name, r.includeDependentAssertions⟩
    | none => .error (.missingField "name")

def reference : Decoder Reference :=
  firstOf "DependencySpec" [fun value => (string value).map Reference.parse,
    referenceRecord]

/-- The documentation of a column as written in an object. -/
structure WrittenColumn where
  description : Option String
  policyTags : Option (List String)
  deriving DecidableEq

/-- How the documentation of a column is written in an object. -/
def WrittenColumn.schema : RecordSchema WrittenColumn where
  name := "ColumnDetail"
  fields := ["description", "bigqueryPolicyTags"]
  aliases := []
  strict := true
  empty := ⟨none, none⟩
  set field value record :=
    match field with
    | "description" =>
      (option string value).map fun x => { record with description := x }
    | "bigqueryPolicyTags" =>
      (option (oneOrMany string) value).map fun x =>
        { record with policyTags := x }
    | _ => .ok record

/-- Reads the documentation of a column: a description, or an object. -/
def column : Decoder Column :=
  firstOf "ColumnSpec"
    [fun value => (string value).map (⟨·, []⟩),
      fun value => (WrittenColumn.schema.decode value).map fun c =>
        ⟨c.description.getD "", c.policyTags.getD []⟩]

def schemaChange : Decoder SchemaChange :=
  variant (SchemaChange.all.map fun change => (change.name, change))

structure WrittenConfig where
  name : Option String
  schema : Option String
  database : Option String
  description : Option String
  tags : Option (List String)
  disabled : Option Bool
  dependencies : Option (List Reference)
  hermetic : Option Bool
  dependOnDependencyAssertions : Option Bool
  columns : Option (Dictionary Column)
  filename : Option String
  isProtected : Option Bool
  materialized : Option Bool
  uniqueKey : Option (List String)
  onSchemaChange : Option SchemaChange
  checks : Option WrittenChecks
  bigquery : Option WrittenBigQuery
  hasOutput : Option Bool
  deriving DecidableEq

namespace WrittenConfig

def empty : WrittenConfig :=
  ⟨none, none, none, none, none, none, none, none, none, none, none, none, none,
    none, none, none, none, none⟩

def set (field : String) (value : Json) (record : WrittenConfig) :
    Except Json.Mismatch WrittenConfig :=
  match field with
  | "name" => (option string value).map fun x => { record with name := x }
  | "schema" => (option string value).map fun x => { record with schema := x }
  | "database" =>
    (option string value).map fun x => { record with database := x }
  | "description" =>
    (option string value).map fun x => { record with description := x }
  | "tags" =>
    (option (oneOrMany string) value).map fun x => { record with tags := x }
  | "disabled" => (option bool value).map fun x => { record with disabled := x }
  | "dependencies" =>
    (option (oneOrMany reference) value).map fun x =>
      { record with dependencies := x }
  | "hermetic" => (option bool value).map fun x => { record with hermetic := x }
  | "dependOnDependencyAssertions" =>
    (option bool value).map fun x =>
      { record with dependOnDependencyAssertions := x }
  | "columns" =>
    (option (map column) value).map fun x =>
      { record with columns := x.map Dictionary.ofList }
  | "filename" =>
    (option string value).map fun x => { record with filename := x }
  | "protected" =>
    (option bool value).map fun x => { record with isProtected := x }
  | "materialized" =>
    (option bool value).map fun x => { record with materialized := x }
  | "uniqueKey" =>
    (option (oneOrMany string) value).map fun x =>
      { record with uniqueKey := x }
  | "onSchemaChange" =>
    (option schemaChange value).map fun x => { record with onSchemaChange := x }
  | "assertions" =>
    (option WrittenChecks.schema.decode value).map fun x =>
      { record with checks := x }
  | "bigquery" =>
    (option WrittenBigQuery.schema.decode value).map fun x =>
      { record with bigquery := x }
  | "hasOutput" =>
    (option bool value).map fun x => { record with hasOutput := x }
  | _ => .ok record

def layout : RecordSchema WrittenConfig where
  name := "RawConfig"
  fields := ["name", "schema", "database", "description", "tags", "disabled",
    "dependencies", "hermetic", "dependOnDependencyAssertions", "columns",
    "filename", "protected", "materialized", "uniqueKey", "onSchemaChange",
    "assertions", "bigquery", "hasOutput"]
  aliases := [("dataset", "schema"), ("project", "database"),
    ("dependencyTargets", "dependencies")]
  strict := false
  empty := empty
  set := set

def ofMembers (members : Json.Members) : Except Json.Mismatch WrittenConfig :=
  layout.readMembers [] empty members

end WrittenConfig

end SqlWorkflow.Action
