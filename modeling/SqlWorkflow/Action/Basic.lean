import SqlWorkflow.Action.Options
import SqlWorkflow.Settings.Config

/-!
# Actions

An action is one named unit of a project. What all actions have stands beside a
body, which has a form for each variant of action.
-/

namespace SqlWorkflow

namespace Action

/-- What a table, view or incremental table has of its own. -/
structure Table where
  type : TableType
  query : String
  incrementalQuery : Option String
  preOps : List String
  postOps : List String
  incrementalPreOps : List String
  incrementalPostOps : List String
  uniqueKey : List String
  onSchemaChange : Option SchemaChange
  materialized : Bool
  isProtected : Bool
  bigquery : Option BigQueryOptions
  deriving DecidableEq

structure Operation where
  queries : List String
  hasOutput : Bool
  deriving DecidableEq

structure Assertion where
  query : String
  /-- The action that the assertion was made for, unless it was written by
  itself. -/
  parent : Option Target
  deriving DecidableEq

structure Notebook where
  contents : String
  runtimeOptions : Option Settings.NotebookOptions
  deriving DecidableEq

/-- The definition of a data preparation, in one of two languages. -/
inductive Preparation
  | yaml (text : String)
  | sql (text : String)
  deriving DecidableEq

/-- The part of an action that depends on its variant. -/
inductive Body
  | table (table : Table)
  | operation (operation : Operation)
  | assertion (assertion : Assertion)
  | declaration
  | notebook (notebook : Notebook)
  | dataPreparation (contents : Preparation)
  deriving DecidableEq

inductive Variant
  | table
  | operation
  | assertion
  | declaration
  | notebook
  | dataPreparation
  deriving DecidableEq

def Body.variant : Body → Variant
  | .table _ => .table
  | .operation _ => .operation
  | .assertion _ => .assertion
  | .declaration => .declaration
  | .notebook _ => .notebook
  | .dataPreparation _ => .dataPreparation

end Action

structure Action where
  target : Target
  canonical : Target
  fileName : String
  disabled : Bool
  tags : List String
  /-- The targets of the actions that this one depends on. -/
  dependencies : List Target
  hermetic : Bool
  description : Option String
  columns : Dictionary Action.Column
  body : Action.Body
  deriving DecidableEq

namespace Action

def variant (a : Action) : Variant := a.body.variant

/-- The action that an assertion was made for. -/
def parent? (a : Action) : Option Target :=
  match a.body with
  | .assertion assertion => assertion.parent
  | _ => none

end Action

end SqlWorkflow
