import SqlWorkflow.Compile.Definition
import SqlWorkflow.Registry.Synthesis
import SqlWorkflow.Sqlx.Statement

/-!
# Registration

A definition becomes an action when its targets are resolved. The action is
registered, its SQL is checked for trailing semicolons, and the assertions for
its data checks are registered after it.
-/

namespace SqlWorkflow.Compile

open Registry (Pending Templates)

/-- The rules by which the target of an action of a kind is resolved. -/
def roleOf : Action.Kind → Target.Role
  | .assertion => .assertion
  | .declaration => .declaration
  | _ => .table

/-- The body of an action before its SQL is compiled. -/
def bodyOf (settings : Settings.Pair) (details : Action.Details)
    (content : Content) : Action.Body :=
  match details, content with
  | .table config, _ =>
    .table
      { type := config.type
        query := ""
        incrementalQuery := none
        preOps := []
        postOps := []
        incrementalPreOps := []
        incrementalPostOps := []
        uniqueKey := config.uniqueKey
        onSchemaChange := config.onSchemaChange
        materialized := config.materialized
        isProtected := config.isProtected
        bigquery := config.bigquery }
  | .operation config, _ => .operation ⟨[], config.hasOutput⟩
  | .assertion, _ => .assertion ⟨"", none⟩
  | .notebook,
    .notebook contents => .notebook ⟨contents, settings.active.notebookOptions⟩
  | .dataPreparation, .preparation contents => .dataPreparation contents
  | _, _ => .declaration

namespace Definition

/-- The parts of its target that a definition gives. -/
def explicit (d : Definition) : Target.Explicit :=
  ⟨d.config.database, d.config.schema, d.config.name.getD d.defaultName⟩

def action (d : Definition) (settings : Settings.Pair) : Action :=
  let targets := Target.resolveBoth settings d.explicit (roleOf d.config.kind)
  { target := targets.target
    canonical := targets.canonical
    fileName := d.fileName
    disabled := d.config.disabled
    tags := d.config.tags
    dependencies := []
    hermetic := d.config.hermetic.getD (d.config.kind == .assertion)
    description := d.config.description
    columns := d.config.columns
    body := bodyOf settings d.config.details d.content }

/-- What is left to be done for the action of a definition. -/
def pending (d : Definition) : Pending :=
  let (templates, interpolate, script) := match d.content with
    | .sql templates interpolate script => (templates, interpolate, script)
    | _ => (.none, false, none)
  { dependencies := d.config.dependencies
    dependOnDependencyAssertions := d.config.dependOnDependencyAssertions
    templates := templates
    interpolate := interpolate
    script := script }

end Definition

/-- The SQL that must not end with a semicolon. -/
def unterminatedSql : Templates → List String
  | .table query incrementalQuery preOps postOps =>
    query :: (incrementalQuery.toList ++ (preOps ++ postOps))
  | .assertion query => [query]
  | .operation _ | .none => []

/-- The diagnostic about SQL that ends with a semicolon. -/
def semicolonDiagnostics (action : Action)
    (templates : Templates) : List Diagnostic :=
  if (unterminatedSql templates).any Sqlx.hasTrailingSemicolon then
    [⟨some action.fileName, some action.target.text,
      Sqlx.trailingSemicolonMessage⟩]
  else []

/-- The actions registered so far, with the diagnostics. -/
structure Build where
  registry : Registry
  diagnostics : Diagnostics

namespace Build

def empty : Build := ⟨.empty, []⟩

/-- Registers the action of a definition and the assertions for its data
checks. -/
def define (settings : Settings.Pair) (build : Build)
    (d : Definition) : Build :=
  let action := d.action settings
  let registry := build.registry.register action d.pending
  { registry :=
      registry.synthesize settings settings.active.warehouse action
        d.config.database d.config.checks
    diagnostics :=
      build.diagnostics.recordAll
        (semicolonDiagnostics action d.pending.templates) }

/-- Takes in something that a file yields. -/
def add (settings : Settings.Pair) (build : Build) : Finding → Build
  | .diagnostic d => { build with diagnostics := build.diagnostics.record d }
  | .definition d => build.define settings d

/-- Takes in all that the files yield. -/
def ofFindings (settings : Settings.Pair) (findings : List Finding) : Build :=
  findings.foldl (add settings) empty

end Build

end SqlWorkflow.Compile
