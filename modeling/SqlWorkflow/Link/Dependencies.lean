import SqlWorkflow.Link.Rendered
import SqlWorkflow.Registry.Lookup

/-!
# Dependencies

An action depends on the targets that it refers to, and on their assertions
where the references ask for that. All places that refer to one target have a
say in it; those that say nothing leave it to the rest, and if all say nothing,
to the action.
-/

namespace SqlWorkflow.Link

/-- What the places that refer to one target say about its dependent
assertions. -/
inductive Demand
  | unsaid
  | said (wanted : Bool)
  /-- They disagree. -/
  | conflicting
  deriving DecidableEq

namespace Demand

def ofSite : Option Bool → Demand
  | none => .unsaid
  | some value => .said value

def merge : Demand → Option Bool → Demand
  | .conflicting, _ => .conflicting
  | demand, none => demand
  | .unsaid, some value => .said value
  | .said current,
    some value => if current = value then .said current else .conflicting

end Demand

/-- The targets that are referred to, in the order of the first reference, with
what is said about them. -/
abbrev Demands := List (Target × Demand)

def Demands.add (site : Site) : Demands → Demands
  | [] => [(site.target, .ofSite site.includeDependentAssertions)]
  | (target, demand) :: rest =>
    if target = site.target then
      (target, demand.merge site.includeDependentAssertions) :: rest
    else (target, demand) :: Demands.add site rest

def Demands.ofSites (sites : List Site) : Demands :=
  sites.foldl (fun demands site => Demands.add site demands) []

/-- The targets of the assertions of a target, the action itself apart. -/
def assertionTargets (registry : Registry)
    (self target : Target) : List Target :=
  ((registry.assertionsOf target).filterMap fun place =>
    (registry.action? place).map (·.target)).filter (· ≠ self)

/-- The targets of the assertions that are demanded. `byDefault` is what the
action says itself. -/
def demandedTargets (registry : Registry) (self : Target) (byDefault : Bool)
    (demands : Demands) : List Target :=
  demands.flatMap fun (target, demand) =>
    match demand with
    | .conflicting => []
    | .unsaid => if byDefault then assertionTargets registry self target else []
    | .said wanted =>
      if wanted then assertionTargets registry self target else []

/-- The targets about which there is no agreement. -/
def conflicts (demands : Demands) : List Fault :=
  demands.filterMap fun (target, demand) =>
    match demand with
    | .conflicting => some (.conflict target)
    | _ => none

/-- The places of declared dependencies, and the faults of those that lead
nowhere. -/
def declaredSites (registry : Registry)
    (self : Target) : List Reference → List Site × List Fault
  | [] => ([], [])
  | reference :: rest =>
    let (sites, faults) := declaredSites registry self rest
    match registry.find reference with
    | .found _ target =>
      (⟨target, reference.includeDependentAssertions⟩ :: sites, faults)
    | .missing => (sites, .missing self reference :: faults)
    | .ambiguous candidates =>
      (sites, .ambiguous reference candidates :: faults)

end SqlWorkflow.Link
