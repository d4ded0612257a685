import SqlWorkflow.Json.Members

/-!
# Diagnostics

A diagnostic is an error that does not stop the compilation; it is reported with
the result. The log of a compilation keeps the order in which diagnostics were
recorded and holds no diagnostic twice.
-/

namespace SqlWorkflow

open Json (Members)

/-- An error that is reported with the result. -/
structure Diagnostic where
  fileName : Option String
  actionName : Option String
  message : String
  deriving DecidableEq

namespace Diagnostic

/-- The text of a diagnostic, with the place that it is about. -/
def text (d : Diagnostic) : String :=
  match d.fileName, d.actionName with
  | some file, some action => file ++ " (" ++ action ++ "): " ++ d.message
  | some file, none => file ++ ": " ++ d.message
  | none, some action => action ++ ": " ++ d.message
  | none, none => d.message

def toJson (d : Diagnostic) : Json :=
  .object (Members.optional "fileName" .string d.fileName ++
    Members.optional "actionName" .string d.actionName ++
    Members.one "message" (.string d.message))

end Diagnostic

/-- Diagnostics in the order in which they were first recorded. -/
abbrev Diagnostics := List Diagnostic

namespace Diagnostics

/-- Records a diagnostic, unless it is recorded already. -/
def record (log : Diagnostics) (d : Diagnostic) : Diagnostics :=
  if d ∈ log then log else log ++ [d]

/-- Records several diagnostics, in order. -/
def recordAll (log : Diagnostics) (ds : List Diagnostic) : Diagnostics :=
  ds.foldl record log

theorem mem_record {log : Diagnostics} {d e : Diagnostic} :
    e ∈ record log d ↔ e ∈ log ∨ e = d := by
  rw [record]
  split
  · constructor
    · exact Or.inl
    · rintro (h | rfl) <;> assumption
  · simp

theorem nodup_record {log : Diagnostics} (h : log.Nodup)
    (d : Diagnostic) : (record log d).Nodup := by
  rw [record]
  split
  · exact h
  · rename_i hd
    rw [List.nodup_append]
    refine ⟨h, by simp, ?_⟩
    rintro a ha b hb rfl
    exact hd (List.mem_singleton.1 hb ▸ ha)

theorem mem_recordAll {log : Diagnostics} {ds : List Diagnostic}
    {e : Diagnostic} : e ∈ recordAll log ds ↔ e ∈ log ∨ e ∈ ds := by
  induction ds generalizing log with
  | nil => simp [recordAll]
  | cons d ds ih =>
    show e ∈ recordAll (record log d) ds ↔ _
    rw [ih, mem_record, List.mem_cons, or_assoc]

theorem nodup_recordAll {log : Diagnostics} (h : log.Nodup)
    (ds : List Diagnostic) : (recordAll log ds).Nodup := by
  induction ds generalizing log with
  | nil => exact h
  | cons d ds ih => exact ih (nodup_record h d)

end Diagnostics

end SqlWorkflow
