import SqlWorkflow.Action.Fault

/-!
# Fatal errors

A fatal error ends a compilation without a graph.
-/

namespace SqlWorkflow

inductive ScriptFault
  /-- The result of a script is not a list of entries. -/
  | malformed (mismatch : Json.Mismatch)
  | configNotObject (index : Nat)
  | notPublishable (index : Nat) (kind : Action.Kind)
  | unnamed (index : Nat)

def ScriptFault.message : ScriptFault → String
  | .malformed mismatch => mismatch.message
  | .configNotObject index =>
    "entry " ++ toString index ++ ": \"config\" must be an object"
  | .notPublishable index kind =>
    "entry " ++ toString index ++ ": publish() cannot create a " ++
      kind.name ++ " action"
  | .unnamed index =>
    "entry " ++ toString index ++ ": every action needs a non-empty name"

inductive CompileError
  | ambiguousSettings
  | missingSettings
  | invalidSettings (file message : String)
  | unknownSetting (file key : String) (suggestion : Option String)
  | versionMismatch (requested installed : String)
  | nonStringVariable (name : String)
  | invalidActionConfig (file : String) (fault : Action.Fault)
  | declarationWithBody (file name : String)
  | emptyActionConfigs (file : String)
  | fileNotFound (file referencedFrom : String)
  | invalidScriptResult (file : String) (fault : ScriptFault)
  | projectNotFound (path : String)

def CompileError.message : CompileError → String
  | .ambiguousSettings =>
    "dataform.json has been deprecated and cannot be defined alongside workflow_settings.yaml"
  | .missingSettings =>
    "Failed to resolve workflow_settings.yaml: the project root must contain " ++
      "workflow_settings.yaml (or the deprecated dataform.json)"
  | .invalidSettings file message => "invalid project settings in " ++ file ++
      (if message.isEmpty then "" else ": " ++ message)
  | .unknownSetting file key suggestion =>
    "unknown setting '" ++ key ++ "' in " ++ file ++
      suggestion.elim "" (fun s => " (did you mean '" ++ s ++ "'?)") ++
      ". See " ++ Documentation.settingsUrl
  | .versionMismatch requested installed =>
    "Version mismatch: workflow settings require dataformCoreVersion \"" ++
      requested ++ "\", but the installed compiler is \"" ++ installed ++ "\""
  | .nonStringVariable name =>
    "Custom variables defined in workflow settings can only be strings. Variable \"" ++
      name ++ "\" is not a string"
  | .invalidActionConfig file fault => file ++ ": " ++ fault.message
  | .declarationWithBody file name =>
    file ++ ": declaration \"" ++ name ++
      "\" cannot have a file body; declarations model pre-existing objects"
  | .emptyActionConfigs file =>
    file ++
      ": empty action configs are not permitted; declare at least one entry under \"actions\""
  | .fileNotFound file referencedFrom =>
    referencedFrom ++ ": file \"" ++ file ++
      "\" referenced by \"filename\" does not exist"
  | .invalidScriptResult file fault =>
    file ++ ": invalid definitions returned by the script evaluator: " ++
      fault.message
  | .projectNotFound path => "project directory not found: " ++ path

end SqlWorkflow
