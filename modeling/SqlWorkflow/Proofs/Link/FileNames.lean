import SqlWorkflow.Link.Outcome
import SqlWorkflow.Proofs.Link.Like
import SqlWorkflow.Registry.Synthesis

/-!
# Linking does not look at file names

Every action carries the name of the file that it comes from. No lookup asks for
it, and linking hands it to the script runtime only. With a runtime that does
not look at it either, registries that differ in file names are linked alike.

What is said about things that differ in their file names is said by leaving the
names out: `unfiled` puts the empty name for each of them.
-/

namespace SqlWorkflow

def Action.unfiled (action : Action) : Action := { action with fileName := "" }

def Script.Request.unfiled (request : Script.Request) : Script.Request :=
  { request with fileName := "" }

/-- A script runtime that gives a request the same value whatever file it is
made for. -/
def Script.IgnoresFileNames (evaluator : Script.Evaluator) : Prop :=
  ∀ (request : Script.Request) (fileName : String),
    evaluator { request with fileName := fileName } = evaluator request

namespace Registry

def Entry.unfiled (entry : Entry) : Entry :=
  { entry with action := entry.action.unfiled }

def unfiled (r : Registry) : Registry :=
  { r with entries := r.entries.map Entry.unfiled }

variable (r : Registry)

@[simp] theorem size_unfiled : r.unfiled.size = r.size :=
  List.length_map _

theorem unfiled_register (action : Action) (pending : Pending) :
    (r.register action pending).unfiled =
      r.unfiled.register action.unfiled pending := by
  simp only [unfiled, register, List.map_append, List.map_cons, List.map_nil]
  rw [show size { r with
    entries := r.entries.map Entry.unfiled } = r.size from r.size_unfiled]
  rfl

/-- The assertions for data checks are registered in the same way for an action
without its file name. -/
theorem unfiled_synthesize (settings : Settings.Pair) (warehouse : Warehouse)
    (parent : Action) (parentDatabase : Option String)
    (checks : Action.Checks) :
    (r.synthesize settings warehouse parent parentDatabase checks).unfiled =
      r.unfiled.synthesize settings warehouse parent.unfiled parentDatabase
        checks := by
  have hassertions :
      assertionsFor settings warehouse parent.unfiled parentDatabase checks =
        (assertionsFor settings warehouse parent parentDatabase checks).map
          Action.unfiled := by
    rw [assertionsFor, assertionsFor, List.map_map]
    rfl
  rw [synthesize, synthesize, hassertions]
  generalize assertionsFor settings warehouse parent parentDatabase checks =
    assertions
  induction assertions generalizing r with
  | nil => rfl
  | cons assertion rest ih =>
    rw [List.foldl_cons, ih, unfiled_register]
    rfl

theorem action?_unfiled (place : Nat) :
    r.unfiled.action? place = (r.action? place).map Action.unfiled := by
  rw [action?, action?, unfiled, List.getElem?_map, Option.map_map,
    Option.map_map]
  rfl

@[simp] theorem find_unfiled (reference : Reference) :
    r.unfiled.find reference = r.find reference := by
  have hcandidates : r.unfiled.candidates reference =
      r.candidates reference := by
    refine List.filterMap_congr fun place _ => ?_
    rw [action?_unfiled, Option.bind_map]
    rfl
  rw [find, hcandidates, find]

end Registry

namespace Link

/-- An outcome without its file name. Faults name no file, and what is reported
is settled by them. -/
def Outcome.unfiled (outcome : Outcome) : Outcome where
  action := outcome.action.unfiled
  faults := outcome.faults
  requests := outcome.requests.map Script.Request.unfiled

variable (r : Registry)

@[simp] theorem assertionTargets_unfiled (self target : Target) :
    assertionTargets r.unfiled self target =
      assertionTargets r self target := by
  refine congrArg (List.filter _) (List.filterMap_congr fun place _ => ?_)
  rw [Registry.action?_unfiled, Option.map_map]
  rfl

@[simp] theorem demandedTargets_unfiled (self : Target) (byDefault : Bool)
    (demands : Demands) :
    demandedTargets r.unfiled self byDefault demands =
      demandedTargets r self byDefault demands := by
  simp only [demandedTargets, assertionTargets_unfiled]

@[simp] theorem declaredSites_unfiled (self : Target)
    (references : List Reference) :
    declaredSites r.unfiled self references =
      declaredSites r self references := by
  induction references with
  | nil => rfl
  | cons reference rest ih =>
    simp only [declaredSites, ih, Registry.find_unfiled]

/-- Two placeholders for the script runtime that differ in the file they are
made for. -/
theorem like_evaluate {left right : Scope} {source : String}
    (hignores : Script.IgnoresFileNames right.surroundings.evaluator)
    (hevaluator : left.surroundings.evaluator = right.surroundings.evaluator)
    (hrequest : left.request source = (right.request source).unfiled) :
    (left.evaluate source).Like (· = ·) (fun one other => one = other.unfiled)
      (right.evaluate source) := by
  have hvalue : right.surroundings.evaluator (right.request source).unfiled =
      right.surroundings.evaluator (right.request source) :=
    hignores (right.request source) ""
  simp only [Scope.evaluate, hevaluator, hrequest, hvalue]
  cases right.surroundings.evaluator (right.request source) with
  | ok value => exact ⟨rfl, rfl, .nil, .cons rfl .nil⟩
  | error message => exact ⟨rfl, rfl, .cons rfl .nil, .cons rfl .nil⟩

/-- Without file names, references come to the same values and placeholders make
the same requests but for the file that they are made for. -/
theorem like_scopeOf_unfiled {surroundings : Surroundings}
    (hignores : Script.IgnoresFileNames surroundings.evaluator)
    (entry : Registry.Entry) :
    (scopeOf r.unfiled surroundings entry.unfiled).Like (· = ·)
      (fun one other => one = other.unfiled)
      (scopeOf r surroundings entry) where
  config := rfl
  selfTarget := rfl
  incremental := rfl
  template _ := rfl
  resolve reference depends := by
    simp only [Scope.resolve, scopeOf, Registry.find_unfiled]
    cases r.find reference with
    | found place target => exact ⟨rfl, rfl, .nil, .nil⟩
    | missing => exact .faulty _ rfl
    | ambiguous candidates => exact .faulty _ rfl
  evaluate _ _ := like_evaluate hignores rfl rfl

variable {surroundings : Surroundings}

/-- What an action is linked to without file names is what it is linked to,
without its file name. -/
theorem linkEntry_unfiled
    (hignores : Script.IgnoresFileNames surroundings.evaluator)
    (entry : Registry.Entry) :
    linkEntry r.unfiled surroundings entry.unfiled =
      (linkEntry r surroundings entry).unfiled := by
  have hrendered : (renderedSql r.unfiled surroundings entry.unfiled).Like
      (· = ·) (fun one other => one = other.unfiled)
      (renderedSql r surroundings entry) :=
    (like_scopeOf_unfiled r hignores entry).sql _ _ _
  have hfaults :
      (renderedSql r.unfiled surroundings entry.unfiled).notes.faults =
        (renderedSql r surroundings entry).notes.faults :=
    List.forall₂_eq_eq_eq ▸ hrendered.faults
  have hrequests :
      (renderedSql r.unfiled surroundings entry.unfiled).notes.requests =
        (renderedSql r surroundings entry).notes.requests.map
          Script.Request.unfiled := by
    rw [← List.forall₂_eq_eq_eq, List.forall₂_map_right_iff]
    exact hrendered.requests
  simp only [linkEntry, hrendered.value, hrendered.sites, hfaults, hrequests,
    declaredSites_unfiled, demandedTargets_unfiled]
  rfl

/-- Actions that differ in their files, in registries that differ in file names,
are linked alike. -/
theorem map_linkEntry_eq
    (hignores : Script.IgnoresFileNames surroundings.evaluator)
    {r other : Registry} (hregistry : r.unfiled = other.unfiled)
    {entries others : List Registry.Entry}
    (hentries :
      entries.map Registry.Entry.unfiled = others.map Registry.Entry.unfiled) :
    entries.map (fun entry => (linkEntry r surroundings entry).unfiled) =
      others.map fun entry => (linkEntry other surroundings entry).unfiled := by
  have hlinked (r : Registry) (entries : List Registry.Entry) :
      entries.map (fun entry => (linkEntry r surroundings entry).unfiled) =
        (entries.map Registry.Entry.unfiled).map
          (linkEntry r.unfiled surroundings) := by
    rw [List.map_map]
    exact List.map_congr_left fun entry _ =>
      (linkEntry_unfiled r hignores entry).symm
  rw [hlinked, hlinked, hregistry, hentries]

/-- All actions of registries that differ in file names are linked alike. -/
theorem unfiled_outcomes_eq
    (hignores : Script.IgnoresFileNames surroundings.evaluator)
    {r other : Registry} (hregistry : r.unfiled = other.unfiled) :
    (outcomes r surroundings).map Outcome.unfiled =
      (outcomes other surroundings).map Outcome.unfiled := by
  rw [outcomes, outcomes, List.map_map, List.map_map]
  exact map_linkEntry_eq hignores hregistry
    (congrArg Registry.entries hregistry)

end Link

end SqlWorkflow
