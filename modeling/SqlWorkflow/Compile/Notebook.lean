import SqlWorkflow.Json.Printer
import SqlWorkflow.Json.Reader

/-!
# Notebooks

A notebook is kept as JSON without the outputs of its cells.
-/

namespace SqlWorkflow.Compile

/-- A cell without its outputs. -/
def clearCell : Json → Json
  | .object members =>
    .object (members.map fun (key, value) =>
      (key, if key = "outputs" then .array [] else value))
  | other => other

/-- The value of a member of a notebook, without the outputs of cells. -/
def clearMember (key : String) (value : Json) : Json :=
  match value with
  | .array cells =>
    if key = "cells" then .array (cells.map clearCell) else value
  | _ => value

/-- A notebook without the outputs of its cells. -/
def clearOutputs : Json → Json
  | .object members =>
    .object (members.map fun (key, value) => (key, clearMember key value))
  | other => other

/-- The compact text of a notebook without outputs, or what is wrong with the
text. -/
def notebookText (contents : String) : Except String String :=
  (Json.parse contents).map fun notebook => (clearOutputs notebook).compact

end SqlWorkflow.Compile
