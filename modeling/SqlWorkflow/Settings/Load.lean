import SqlWorkflow.Project.Files
import SqlWorkflow.Settings.Legacy
import SqlWorkflow.Settings.Override
import SqlWorkflow.Settings.Workflow

/-!
# Loading settings

A project has exactly one settings file. A compiler version that the file pins
must be that of this compiler. The overrides of a run change the active settings
only.
-/

namespace SqlWorkflow.Settings

def ofFiles (files : Project.Files) : Except CompileError Config :=
  match Dictionary.get? files workflowFile,
    Dictionary.get? files legacyFile with
  | some _, some _ => .error .ambiguousSettings
  | none, none => .error .missingSettings
  | some content, none => parseWorkflow content
  | none, some content => parseLegacy content

/-- Refuses a pinned version that is not the given one. -/
def checkVersion (config : Config)
    (version : String) : Except CompileError Unit :=
  match config.compilerVersion with
  | some requested =>
    if requested = version then .ok ()
    else .error (.versionMismatch requested version)
  | none => .ok ()

/-- The settings of a compilation by a version of the compiler. -/
def load (files : Project.Files) (override : Override) (version : String) :
    Except CompileError Pair :=
  match ofFiles files with
  | .error e => .error e
  | .ok config =>
    (checkVersion config version).map fun () =>
      ⟨override.apply config, config.canonical⟩

end SqlWorkflow.Settings
