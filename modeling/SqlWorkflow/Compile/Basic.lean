import SqlWorkflow.Compile.Registration
import SqlWorkflow.Compile.Source
import SqlWorkflow.Graph.Basic
import SqlWorkflow.Graph.Validation
import SqlWorkflow.Link.Outcome
import SqlWorkflow.Settings.Load

/-!
# Compilation

A project is compiled in two phases. First every file is read and its actions
are registered; then, when all actions are known, they are linked and the whole
is validated. A fatal error stops the first phase, and the second has none.
-/

namespace SqlWorkflow

namespace Compile

def version : String := "3.0.0"

structure Options where
  override : Settings.Override
  /-- The version that a pin in the settings has to equal. -/
  version : String

/-- Nothing overridden, and the version of this compiler. -/
def Options.default : Options := ⟨.empty, Compile.version⟩

/-- The result of a compilation, with the requests that it made to the script
runtime, in order. -/
structure Run where
  result : Except CompileError Graph
  requests : List Script.Request

def surroundings (context : Context) : Link.Surroundings :=
  ⟨context.config, context.evaluator, context.includes⟩

def contextOf (files : Project.Files) (evaluator : Script.Evaluator)
    (settings : Settings.Pair) : Context :=
  ⟨files, evaluator, settings.active, includesOf files⟩

/-- The diagnostics of a registry that is being linked, added to those recorded
before. -/
def linkDiagnostics (outcomes : List Link.Outcome)
    (log : Diagnostics) : Diagnostics :=
  log.recordAll (outcomes.flatMap Link.Outcome.diagnostics)

/-- The second phase: links what is registered and validates the whole. -/
def finish (context : Context) (version : String)
    (build : Build) : Graph × List Script.Request :=
  let outcomes := Link.outcomes build.registry (surroundings context)
  let linked := build.registry.withActions (outcomes.map (·.action))
  let diagnostics :=
    (linkDiagnostics outcomes build.diagnostics).recordAll
      (Graph.validate linked context.config)
  (⟨context.config, linked.actions, diagnostics, version⟩,
    outcomes.flatMap (·.requests))

def withSettings (files : Project.Files) (evaluator : Script.Evaluator)
    (settings : Settings.Pair) (version : String) : Run :=
  let context := contextOf files evaluator settings
  let reading := readFiles context
  match reading.findings with
  | .error e => ⟨.error e, reading.requests⟩
  | .ok findings =>
    let (graph, requests) :=
      finish context version (Build.ofFindings settings findings)
    ⟨.ok graph, reading.requests ++ requests⟩

end Compile

def compile (files : Project.Files) (evaluator : Script.Evaluator)
    (options : Compile.Options) : Compile.Run :=
  match Settings.load files options.override options.version with
  | .error e => ⟨.error e, []⟩
  | .ok settings =>
    Compile.withSettings files evaluator settings options.version

end SqlWorkflow
