import SqlWorkflow.Action.Basic
import SqlWorkflow.Reference
import SqlWorkflow.Registry.Index

/-!
# The registry

The registry holds the actions of a compilation in the order of their
registration. Indexes find them by name, by target and by parent. Actions are
only added, so an index never has to be corrected.
-/

namespace SqlWorkflow

namespace Registry

/-- The SQL of an action before its placeholders are filled in. -/
inductive Templates
  | none
  | table (query : String) (incrementalQuery : Option String)
      (preOps postOps : List String)
  | operation (queries : List String)
  | assertion (query : String)
  deriving DecidableEq

/-- What is left to be done for an action when all actions are known. -/
structure Pending where
  /-- The declared dependencies, in the order of the config. -/
  dependencies : List Reference
  dependOnDependencyAssertions : Bool
  templates : Templates
  /-- Whether placeholders are filled in; plain SQL is copied as it is. -/
  interpolate : Bool
  /-- The script that belongs to the file of the action. -/
  script : Option String
  deriving DecidableEq

def Pending.nothing : Pending := ⟨[], false, .none, false, none⟩

structure Entry where
  action : Action
  pending : Pending
  deriving DecidableEq

end Registry

structure Registry where
  entries : List Registry.Entry
  /-- The places of each canonical name. -/
  byName : Registry.Index String
  byTarget : Registry.Index Target
  byCanonical : Registry.Index Target
  /-- The places of the assertions that were made for each target. -/
  byParent : Registry.Index Target

namespace Registry

/-- A registry without actions. -/
def empty : Registry := ⟨[], [], [], [], []⟩

def size (r : Registry) : Nat := r.entries.length

/-- The actions, in the order of their registration. -/
def actions (r : Registry) : List Action := r.entries.map (·.action)

def action? (r : Registry) (place : Nat) : Option Action :=
  r.entries[place]?.map (·.action)

def register (r : Registry) (action : Action)
    (pending : Pending) : Registry where
  entries := r.entries ++ [⟨action, pending⟩]
  byName := r.byName.add action.canonical.name r.size
  byTarget := r.byTarget.add action.target r.size
  byCanonical := r.byCanonical.add action.canonical r.size
  byParent :=
    match action.parent? with
    | some parent => r.byParent.add parent r.size
    | none => r.byParent

/-- Puts other actions into the entries. They must have the same names and
targets as those they replace, so that the indexes still hold. -/
def withActions (r : Registry) (actions : List Action) : Registry :=
  { r with
    entries := r.entries.zipWith (fun entry action =>
      { entry with action := action }) actions }

/-- The place of the first action with a target. -/
def placeOf? (r : Registry) (target : Target) : Option Nat :=
  (r.byTarget.places target).head?

/-- The places of the assertions that were made for a target. -/
def assertionsOf (r : Registry) (parent : Target) : List Nat :=
  r.byParent.places parent

/-- The targets that several actions have, with the places of those. -/
def duplicateTargets (r : Registry) : Index Target := r.byTarget.repeated

/-- The canonical targets that several actions have, with the places of
those. -/
def duplicateCanonicals (r : Registry) : Index Target := r.byCanonical.repeated

@[simp] theorem size_register (r : Registry) (action : Action)
    (pending : Pending) : (r.register action pending).size = r.size + 1 := by
  simp [register, size]

@[simp] theorem actions_register (r : Registry) (action : Action)
    (pending : Pending) :
    (r.register action pending).actions = r.actions ++ [action] := by
  simp [register, actions]

end Registry

end SqlWorkflow
