import SqlWorkflow.Reference
import SqlWorkflow.Template.Segment
import SqlWorkflow.Text.Blank

/-!
# Faults of linking

What may go wrong when the placeholders and references of an action are
resolved. A fault is reported with the result; the rest of the action is linked
all the same.
-/

namespace SqlWorkflow.Link

/-- Something that could not be linked. -/
inductive Fault
  /-- A template is not well formed. -/
  | template (error : Template.UnclosedPlaceholder)
  /-- The script runtime failed on a placeholder. -/
  | evaluation (source message : String)
  /-- A reference in a placeholder leads nowhere. -/
  | unresolved (reference : Reference)
  /-- A declared dependency of an action leads nowhere. -/
  | missing (action : Target) (reference : Reference)
  /-- A reference fits several targets. -/
  | ambiguous (reference : Reference) (candidates : List Target)
  /-- References to one target disagree about its dependent assertions. -/
  | conflict (target : Target)
  deriving DecidableEq

def Fault.message : Fault → String
  | .template error => error.message
  | .evaluation source message =>
    "Error evaluating \"$\x7b" ++ Text.trim source ++ "\x7d\": " ++ message
  | .unresolved reference => "Could not resolve \"" ++ reference.text ++ "\""
  | .missing action reference =>
    "Missing dependency detected: Action \"" ++ action.text ++
      "\" depends on \"" ++ reference.text ++ "\" which does not exist"
  | .ambiguous reference candidates =>
    "Ambiguous Action name: " ++ reference.text ++ ". Did you mean one of: " ++
      ", ".intercalate (candidates.map Target.qualifiedName) ++ "."
  | .conflict target =>
    "Conflicting \"includeDependentAssertions\" properties are not allowed. Dependency " ++
      target.text ++ " has different values set for this property."

end SqlWorkflow.Link
