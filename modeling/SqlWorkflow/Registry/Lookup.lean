import SqlWorkflow.Registry.Basic

/-!
# Looking up references

A reference names an action by its canonical name. The schema and the database,
where they are given, may be those of either target of the action. Several
actions with one target count as one.
-/

namespace SqlWorkflow.Registry

inductive Lookup
  /-- The first action of the only target that fits. -/
  | found (place : Nat) (target : Target)
  | missing
  /-- The targets that fit, in the order of their registration. -/
  | ambiguous (candidates : List Target)
  deriving DecidableEq

/-- Whether a part of a reference fits the same part of one of two targets. -/
def partFits (wanted effective canonical : Option String) : Bool :=
  wanted.isNone || wanted == effective || wanted == canonical

/-- Whether the schema and the database of a reference fit an action. -/
def fits (reference : Reference) (action : Action) : Bool :=
  partFits reference.schema action.target.schema action.canonical.schema &&
    partFits reference.database action.target.database action.canonical.database

/-- The actions that a reference fits, by place. -/
def candidates (r : Registry) (reference : Reference) : List (Nat × Target) :=
  (r.byName.places reference.name).filterMap fun place =>
    (r.action? place).bind fun action =>
      if fits reference action then some (place, action.target) else none

/-- The first candidate of each target. -/
def firstOfEach : List (Nat × Target) → List (Nat × Target)
  | [] => []
  | c :: cs => c :: (firstOfEach cs).filter fun other => other.2 ≠ c.2

def find (r : Registry) (reference : Reference) : Lookup :=
  match firstOfEach (r.candidates reference) with
  | [] => .missing
  | [(place, target)] => .found place target
  | several => .ambiguous (several.map (·.2))

theorem firstOfEach_sublist (cs : List (Nat × Target)) :
    (firstOfEach cs).Sublist cs := by
  induction cs with
  | nil => exact .slnil
  | cons c cs ih => exact (List.filter_sublist.trans ih).cons_cons c

theorem nodup_firstOfEach (cs : List (Nat × Target)) :
    ((firstOfEach cs).map (·.2)).Nodup := by
  induction cs with
  | nil => simp [firstOfEach]
  | cons c cs ih =>
    simp only [firstOfEach, List.map_cons, List.nodup_cons, List.mem_map,
      List.mem_filter]
    refine ⟨?_, ih.sublist (List.filter_sublist.map _)⟩
    rintro ⟨other, ⟨_, hne⟩, heq⟩
    simp [heq] at hne

end SqlWorkflow.Registry
