import SqlWorkflow.Diagnostic
import SqlWorkflow.Graph.Cycle
import SqlWorkflow.Registry.Basic

/-!
# Validation

The checks on all actions together: no target and no canonical target may belong
to two actions, no action may depend on itself through others, and the settings
must suit the warehouse.
-/

namespace SqlWorkflow.Graph

def duplicateTargetMessage (target : Target) : String :=
  "Duplicate action name detected. Names within a schema must be unique across tables, " ++
    "declarations, assertions, and operations: \"" ++ target.text ++ "\""

def duplicateCanonicalMessage (target : Target) : String :=
  "Duplicate canonical target detected. Canonical targets must be unique across tables, " ++
    "declarations, assertions, and operations: \"" ++ target.text ++ "\""

def cycleMessage (targets : List Target) : String :=
  "Circular dependency detected in chain: [" ++
    " > ".intercalate (targets.map Target.text) ++ "]"

/-- The text about settings without a location. -/
def missingLocationMessage : String :=
  "A defaultLocation is required for BigQuery. This can be configured in workflow_settings.yaml."

/-- The diagnostic about a duplicate, in the file of the last action that has
the target. -/
def duplicateDiagnostic (r : Registry) (message : Target → String)
    (duplicate : Target × List Nat) : Diagnostic where
  fileName := (duplicate.2.getLast?.bind r.action?).map (·.fileName)
  actionName := some duplicate.1.text
  message := message duplicate.1

def duplicateDiagnostics (r : Registry) : List Diagnostic :=
  r.duplicateTargets.map (duplicateDiagnostic r duplicateTargetMessage) ++
    r.duplicateCanonicals.map (duplicateDiagnostic r duplicateCanonicalMessage)

/-- The places of the actions that each action depends on. -/
def adjacency (r : Registry) : List (List Nat) :=
  r.actions.map fun action => action.dependencies.filterMap r.placeOf?

/-- The diagnostic about a cycle, at the action where it begins. -/
def cycleDiagnostic (r : Registry) (cycle : List Nat) : Option Diagnostic :=
  (cycle.head?.bind r.action?).map fun action =>
    { fileName := some action.fileName
      actionName := some action.target.text
      message := cycleMessage ((cycle.filterMap r.action?).map (·.target)) }

def cycleDiagnostics (r : Registry) : List Diagnostic :=
  (cycles (adjacency r)).filterMap (cycleDiagnostic r)

/-- Whether settings lack a location that the warehouse takes. -/
def lacksLocation (config : Settings.Config) : Bool :=
  config.warehouse.requiresDefaultLocation &&
    (config.defaultLocation.getD "").isEmpty

def settingsDiagnostics (config : Settings.Config) : List Diagnostic :=
  if lacksLocation config then [⟨none, none, missingLocationMessage⟩] else []

/-- All that is wrong with the actions of a registry together. -/
def validate (r : Registry) (config : Settings.Config) : List Diagnostic :=
  duplicateDiagnostics r ++ (cycleDiagnostics r ++ settingsDiagnostics config)

end SqlWorkflow.Graph
