/-!
# Targets

A target is the address of an object in the warehouse: a name in a schema of a
database, of which the schema and the database may be left open.
-/

namespace SqlWorkflow

structure Target where
  database : Option String
  schema : Option String
  name : String
  deriving DecidableEq

namespace Target

/-- Optional parts before a name, each followed by a dot. -/
def dotted (database schema : Option String) (name : String) : String :=
  (database.elim "" (· ++ ".")) ++ ((schema.elim "" (· ++ ".")) ++ name)

/-- The parts of a target, joined by dots. -/
def text (t : Target) : String :=
  dotted t.database t.schema t.name

/-- The name with its schema, the form in which candidates are offered. -/
def qualifiedName (t : Target) : String :=
  dotted none t.schema t.name

/-- Adds a target to the end of a list, unless it is there. -/
def addTo (targets : List Target) (target : Target) : List Target :=
  if target ∈ targets then targets else targets ++ [target]

/-- A list of targets without its repetitions. -/
def distinct (targets : List Target) : List Target :=
  targets.foldl addTo []

theorem nodup_addTo {targets : List Target} (h : targets.Nodup)
    (target : Target) : (addTo targets target).Nodup := by
  rw [addTo]
  split
  · exact h
  · rename_i hnot
    rw [List.nodup_append]
    refine ⟨h, by simp, ?_⟩
    rintro a ha b hb rfl
    exact hnot (List.mem_singleton.1 hb ▸ ha)

end Target

end SqlWorkflow
