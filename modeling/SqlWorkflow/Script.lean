import SqlWorkflow.Json.Value
import SqlWorkflow.Settings.Config

/-!
# Scripts

What goes beyond literal expressions is left to a script runtime. The compiler
knows it only as a function from requests to values; it makes no request that it
can answer itself.
-/

namespace SqlWorkflow.Script

inductive Purpose
  /-- A definition file, whose value is a list of entries. -/
  | definitionFile
  /-- A config block that is not a literal, whose value is an object. -/
  | configBlock
  /-- A placeholder, whose value is inserted into SQL. -/
  | placeholder
  deriving DecidableEq

def Purpose.text : Purpose → String
  | .definitionFile => "definition file"
  | .configBlock => "config block"
  | .placeholder => "placeholder expression"

/-- A script, with all that it may look at. -/
structure Request where
  script : String
  fileName : String
  purpose : Purpose
  config : Settings.Config
  /-- The shared scripts of the project, by path. -/
  includes : Dictionary String
  /-- The target of the action that a placeholder belongs to. -/
  selfTarget : Option Target
  incremental : Bool
  /-- The script blocks of the file, which run before the script. -/
  preamble : Option String
  deriving DecidableEq

/-- A script runtime: the value of every request, or the message of its
failure. -/
abbrev Evaluator := Request → Except String Json

/-- The runtime that fails every request. -/
def noRuntime : Evaluator := fun request =>
  .error ("no script runtime is attached; cannot evaluate " ++
    request.purpose.text ++ " in " ++ request.fileName)

end SqlWorkflow.Script
