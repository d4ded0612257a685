import SqlWorkflow.Diagnostic
import SqlWorkflow.Link.Dependencies
import SqlWorkflow.Link.Sql

/-!
# Linking

When all actions are registered, each is linked: its SQL is compiled, and its
dependencies are worked out. Every outcome is computed from the registry as it
was before linking; only then are the outcomes written back.
-/

namespace SqlWorkflow.Link

structure Outcome where
  action : Action
  faults : List Fault
  requests : List Script.Request
  deriving DecidableEq

def scopeOf (registry : Registry) (surroundings : Surroundings)
    (entry : Registry.Entry) : Scope where
  registry := registry
  surroundings := surroundings
  fileName := entry.action.fileName
  selfTarget := entry.action.target
  script := entry.pending.script
  incremental := false

def renderedSql (registry : Registry) (surroundings : Surroundings)
    (entry : Registry.Entry) : Rendered Sql :=
  (scopeOf registry surroundings entry).sql (isIncremental entry.action.body)
    entry.pending.interpolate entry.pending.templates

def linkEntry (registry : Registry) (surroundings : Surroundings)
    (entry : Registry.Entry) : Outcome :=
  let self := entry.action.target
  let rendered := renderedSql registry surroundings entry
  let declared := declaredSites registry self entry.pending.dependencies
  let sites := declared.1 ++ rendered.notes.sites
  let demands := Demands.ofSites sites
  let demanded :=
    demandedTargets registry self
      entry.pending.dependOnDependencyAssertions demands
  { action :=
      { entry.action with
        dependencies :=
          Target.distinct
            (entry.action.dependencies ++ (sites.map (·.target) ++ demanded))
        body := rendered.value.applyTo entry.action.body }
    faults := rendered.notes.faults ++ (declared.2 ++ conflicts demands)
    requests := rendered.notes.requests }

def outcomes (registry : Registry)
    (surroundings : Surroundings) : List Outcome :=
  registry.entries.map (linkEntry registry surroundings)

def Outcome.diagnostics (outcome : Outcome) : List Diagnostic :=
  outcome.faults.map fun fault =>
    ⟨some outcome.action.fileName, some outcome.action.target.text,
      fault.message⟩

def linked (registry : Registry) (surroundings : Surroundings) : Registry :=
  registry.withActions ((outcomes registry surroundings).map (·.action))

end SqlWorkflow.Link
