import SqlWorkflow.Dictionary
import SqlWorkflow.Reference

/-!
# Options of actions

The parts of an action config that are carried into the compiled action as they
are.
-/

namespace SqlWorkflow.Action

structure Column where
  description : String
  policyTags : List String
  deriving DecidableEq

inductive TableType
  | table
  | view
  | incremental
  deriving DecidableEq

def TableType.name : TableType → String
  | .table => "table"
  | .view => "view"
  | .incremental => "incremental"

inductive SchemaChange
  | ignore
  | fail
  | extend
  | synchronize
  deriving DecidableEq

/-- The word for a reaction to a change of columns. -/
def SchemaChange.name : SchemaChange → String
  | .ignore => "IGNORE"
  | .fail => "FAIL"
  | .extend => "EXTEND"
  | .synchronize => "SYNCHRONIZE"

def SchemaChange.all : List SchemaChange :=
  [.ignore, .fail, .extend, .synchronize]

structure BigQueryOptions where
  partitionBy : Option String
  clusterBy : List String
  updatePartitionFilter : Option String
  labels : Dictionary String
  partitionExpirationDays : Option Nat
  requirePartitionFilter : Option Bool
  additionalOptions : Dictionary String
  deriving DecidableEq

/-- The data checks that a table or operation asks for in short form. -/
structure Checks where
  /-- Groups of columns of which no combination of values may occur twice. -/
  uniqueKeys : List (List String)
  nonNull : List String
  rowConditions : List String
  deriving DecidableEq

namespace Checks

def none : Checks := ⟨[], [], []⟩

def isEmpty (c : Checks) : Bool :=
  c.uniqueKeys.isEmpty && c.nonNull.isEmpty && c.rowConditions.isEmpty

/-- The conditions that every row has to meet: those given, then one for each
column that must not be null. -/
def conditions (c : Checks) : List String :=
  c.rowConditions ++ c.nonNull.map (· ++ " IS NOT NULL")

end Checks

end SqlWorkflow.Action
