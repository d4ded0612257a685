import SqlWorkflow.Action.Json
import SqlWorkflow.Action.Basic
import SqlWorkflow.Diagnostic

/-!
# The compiled graph

The result of a compilation: the settings, the actions with their dependencies,
and the diagnostics. It is written as one object, in which the actions of each
variant have a list of their own.
-/

namespace SqlWorkflow

open Json (Members)

structure Graph where
  config : Settings.Config
  /-- The actions, in the order of their registration. -/
  actions : List Action
  diagnostics : List Diagnostic
  compilerVersion : String
  deriving DecidableEq

namespace Graph

/-- The actions of a graph, each in the list of its variant, and their
targets. -/
structure Lists where
  tables : List Action := []
  operations : List Action := []
  assertions : List Action := []
  declarations : List Action := []
  notebooks : List Action := []
  dataPreparations : List Action := []
  /-- The targets of the actions, without repetitions. -/
  targets : List Target := []

namespace Lists

/-- An action goes to the end of the list of its variant. -/
def push (lists : Lists) (action : Action) : Lists :=
  let lists :=
    { lists with targets := Target.addTo lists.targets action.target }
  match action.body with
  | .table _ => { lists with tables := lists.tables ++ [action] }
  | .operation _ => { lists with operations := lists.operations ++ [action] }
  | .assertion _ => { lists with assertions := lists.assertions ++ [action] }
  | .declaration =>
    { lists with declarations := lists.declarations ++ [action] }
  | .notebook _ => { lists with notebooks := lists.notebooks ++ [action] }
  | .dataPreparation _ =>
    { lists with dataPreparations := lists.dataPreparations ++ [action] }

def ofVariant (lists : Lists) : Action.Variant → List Action
  | .table => lists.tables
  | .operation => lists.operations
  | .assertion => lists.assertions
  | .declaration => lists.declarations
  | .notebook => lists.notebooks
  | .dataPreparation => lists.dataPreparations

/-- The number of actions in the six lists. -/
def size (lists : Lists) : Nat :=
  lists.tables.length + lists.operations.length + lists.assertions.length +
    lists.declarations.length + lists.notebooks.length +
    lists.dataPreparations.length

end Lists

/-- The lists, filled in the order of the actions. -/
def lists (g : Graph) : Lists :=
  g.actions.foldl Lists.push {}

def ofVariant (g : Graph) (variant : Action.Variant) : List Action :=
  g.lists.ofVariant variant

/-- The first action of a variant with a name. -/
def named? (g : Graph) (variant : Action.Variant) (name : String) :
    Option Action :=
  (g.ofVariant variant).find? (·.target.name = name)

def size (g : Graph) : Nat := g.lists.size

def targets (g : Graph) : List Target := g.lists.targets

end Graph

def Target.toJson (t : Target) : Json :=
  .object (Members.optional "database" .string t.database ++
    Members.optional "schema" .string t.schema ++
    Members.one "name" (.string t.name))

namespace Action

def Table.members (t : Table) : Members :=
  Members.one "type" (.string t.type.name) ++
    Members.one "query" (.string t.query) ++
    Members.optional "incrementalQuery" .string t.incrementalQuery ++
    Members.nonEmpty "preOps" .string t.preOps ++
    Members.nonEmpty "postOps" .string t.postOps ++
    Members.nonEmpty "incrementalPreOps" .string t.incrementalPreOps ++
    Members.nonEmpty "incrementalPostOps" .string t.incrementalPostOps ++
    Members.nonEmpty "uniqueKey" .string t.uniqueKey ++
    Members.optional "onSchemaChange" (fun change => .string change.name)
      t.onSchemaChange ++ Members.flag "materialized" t.materialized ++
    Members.flag "protected" t.isProtected ++
    Members.optional "bigquery" BigQueryOptions.toJson t.bigquery

def Preparation.toJson : Preparation → Json
  | .yaml text => .object (Members.one "yaml" (.string text))
  | .sql text => .object (Members.one "sql" (.string text))

/-- The members that depend on the variant of an action. -/
def Body.members : Body → Members
  | .table t => t.members
  | .operation o =>
    Members.one "queries" (Json.strings o.queries) ++
      Members.flag "hasOutput" o.hasOutput
  | .assertion a =>
    Members.one "query" (.string a.query) ++
      Members.optional "parentAction" Target.toJson a.parent
  | .declaration => []
  | .notebook n =>
    Members.one "notebookContents" (.string n.contents) ++
      Members.optional "runtimeOptions" Settings.NotebookOptions.toJson
        n.runtimeOptions
  | .dataPreparation contents => Members.one "contents" contents.toJson

def toJson (a : Action) : Json :=
  .object (Members.one "target" a.target.toJson ++
    Members.one "canonicalTarget" a.canonical.toJson ++ Members.one "fileName"
      (.string a.fileName) ++ Members.flag "disabled" a.disabled ++
    Members.nonEmpty "tags" .string a.tags ++
    Members.nonEmpty "dependencyTargets" Target.toJson a.dependencies ++
    Members.one "hermeticity"
      (.string (if a.hermetic then "HERMETIC" else "NON_HERMETIC")) ++
    Members.optional "description" .string a.description ++
    (if a.columns.isEmpty then [] else
      Members.one "columns" (columnsToJson a.columns)) ++ a.body.members)

end Action

namespace Graph

def listOf (g : Graph) (variant : Action.Variant) : Json :=
  Json.arrayOf Action.toJson (g.ofVariant variant)

def toJson (g : Graph) : Json :=
  .object (Members.one "projectConfig" g.config.toJson ++
    Members.one "tables" (g.listOf .table) ++
    Members.one "operations" (g.listOf .operation) ++
    Members.one "assertions" (g.listOf .assertion) ++
    Members.one "declarations" (g.listOf .declaration) ++
    Members.one "notebooks" (g.listOf .notebook) ++
    Members.one "dataPreparations" (g.listOf .dataPreparation) ++
    Members.one "targets" (Json.arrayOf Target.toJson g.targets) ++
    Members.one "graphErrors" (.object (Members.one "compilationErrors"
      (Json.arrayOf Diagnostic.toJson g.diagnostics))) ++
    Members.one "dataformCoreVersion" (.string g.compilerVersion))

end Graph

end SqlWorkflow
