import SqlWorkflow.Action.Kind
import SqlWorkflow.Action.Options

/-!
# Action configs

A config that obeys its schema and the rules across its fields. What only some
kinds have is kept apart from what all kinds have.
-/

namespace SqlWorkflow.Action

/-- What a table, view or incremental table has of its own. -/
structure TableConfig where
  type : TableType
  isProtected : Bool
  materialized : Bool
  uniqueKey : List String
  onSchemaChange : Option SchemaChange
  checks : Checks
  bigquery : Option BigQueryOptions
  deriving DecidableEq

structure OperationConfig where
  hasOutput : Bool
  checks : Checks
  deriving DecidableEq

/-- The part of a config that depends on the kind. -/
inductive Details
  | table (config : TableConfig)
  | operation (config : OperationConfig)
  | assertion
  | declaration
  | notebook
  | dataPreparation
  deriving DecidableEq

structure Config where
  kind : Kind
  name : Option String
  schema : Option String
  database : Option String
  description : Option String
  tags : List String
  disabled : Bool
  dependencies : List Reference
  hermetic : Option Bool
  dependOnDependencyAssertions : Bool
  columns : Dictionary Column
  filename : Option String
  details : Details
  deriving DecidableEq

/-- The data checks that a config asks for; most kinds cannot ask. -/
def Config.checks (config : Config) : Checks :=
  match config.details with
  | .table table => table.checks
  | .operation operation => operation.checks
  | _ => .none

end SqlWorkflow.Action
