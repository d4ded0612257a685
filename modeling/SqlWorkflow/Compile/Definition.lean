import SqlWorkflow.Action.Config
import SqlWorkflow.CompileError
import SqlWorkflow.Diagnostic
import SqlWorkflow.Registry.Basic
import SqlWorkflow.Script

/-!
# Definitions

Every way of writing an action comes down to a definition: a config with what
the action is compiled from. Reading a file yields definitions and diagnostics,
in order, or a fatal error; either way the requests made to the script runtime
are kept.
-/

namespace SqlWorkflow.Compile

/-- What an action is compiled from, besides its config. -/
inductive Content
  | sql (templates : Registry.Templates) (interpolate : Bool)
      (script : Option String)
  | notebook (contents : String)
  | preparation (contents : Action.Preparation)
  | nothing
  deriving DecidableEq

structure Definition where
  fileName : String
  config : Action.Config
  /-- The name of the action if the config gives none. -/
  defaultName : String
  content : Content
  deriving DecidableEq

/-- Something that a file yields. -/
inductive Finding
  | diagnostic (diagnostic : Diagnostic)
  | definition (definition : Definition)
  deriving DecidableEq

def Finding.ofFile (fileName message : String) : Finding :=
  .diagnostic ⟨some fileName, none, message⟩

structure Reading where
  findings : Except CompileError (List Finding)
  requests : List Script.Request

namespace Reading

/-- A reading without requests. -/
def plain (findings : Except CompileError (List Finding)) : Reading :=
  ⟨findings, []⟩

/-- What several readings yield together; the first fatal error ends them. -/
def all {α : Type} (read : α → Reading) : List α → Reading
  | [] => plain (.ok [])
  | a :: rest =>
    let first := read a
    match first.findings with
    | .error e => ⟨.error e, first.requests⟩
    | .ok findings =>
      let others := all read rest
      ⟨others.findings.map (findings ++ ·), first.requests ++ others.requests⟩

end Reading

/-- The findings of several items together; the first fatal error ends them. -/
def collect {α : Type} (read : α → Except CompileError (List Finding)) :
    List α → Except CompileError (List Finding)
  | [] => .ok []
  | a :: rest =>
    match read a with
    | .error e => .error e
    | .ok findings => (collect read rest).map (findings ++ ·)

structure Context where
  files : Dictionary String
  evaluator : Script.Evaluator
  config : Settings.Config
  /-- The shared scripts of the project, by path. -/
  includes : Dictionary String

end SqlWorkflow.Compile
