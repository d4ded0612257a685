import SqlWorkflow.Action.CheckQuery
import SqlWorkflow.Registry.Basic
import SqlWorkflow.Target.Resolution

/-!
# Assertions for data checks

The data checks that an action asks for become assertions of their own,
registered right after it. They share its file, tags and disabled flag, and
depend on it alone.
-/

namespace SqlWorkflow.Registry

def assertionFor (settings : Settings.Pair) (parent : Action)
    (parentDatabase : Option String) (checkName query : String) : Action :=
  let targets :=
    Target.assertionTargets settings parent.canonical parentDatabase checkName
  { target := targets.target
    canonical := targets.canonical
    fileName := parent.fileName
    disabled := parent.disabled
    tags := parent.tags
    dependencies := [parent.target]
    hermetic := true
    description := none
    columns := []
    body := .assertion ⟨query, some parent.target⟩ }

def assertionsFor (settings : Settings.Pair) (warehouse : Warehouse)
    (parent : Action) (parentDatabase : Option String)
    (checks : Action.Checks) : List Action :=
  (checks.queries warehouse parent.target).map fun check =>
    assertionFor settings parent parentDatabase check.1 check.2

def synthesize (r : Registry) (settings : Settings.Pair) (warehouse : Warehouse)
    (parent : Action) (parentDatabase : Option String)
    (checks : Action.Checks) : Registry :=
  (assertionsFor settings warehouse parent parentDatabase checks).foldl
    (fun registry assertion => registry.register assertion .nothing) r

/-- Registers actions for which nothing is left to be done, and tells their
places. -/
def registerAll (r : Registry) : List Action → Registry × List Nat
  | [] => (r, [])
  | action :: rest =>
    let (registry, places) := (r.register action .nothing).registerAll rest
    (registry, r.size :: places)

/-- Makes the assertions for the data checks of an action, and tells their
places. -/
def synthesizeWithPlaces (r : Registry) (settings : Settings.Pair)
    (warehouse : Warehouse) (parent : Action) (parentDatabase : Option String)
    (checks : Action.Checks) : Registry × List Nat :=
  r.registerAll (assertionsFor settings warehouse parent parentDatabase checks)

theorem registerAll_fst (r : Registry) (actions : List Action) :
    (r.registerAll actions).1 =
      actions.foldl
        (fun registry action => registry.register action .nothing) r := by
  induction actions generalizing r with
  | nil => rfl
  | cons action rest ih => exact ih (r.register action .nothing)

/-- The places are told of the registry that synthesis makes. -/
theorem synthesizeWithPlaces_fst (r : Registry) (settings : Settings.Pair)
    (warehouse : Warehouse) (parent : Action) (parentDatabase : Option String)
    (checks : Action.Checks) :
    (r.synthesizeWithPlaces settings warehouse parent parentDatabase checks).1 =
      r.synthesize settings warehouse parent parentDatabase checks :=
  registerAll_fst r _

end SqlWorkflow.Registry
