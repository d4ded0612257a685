import SqlWorkflow.Settings.Draft
import SqlWorkflow.Text.Blank
import SqlWorkflow.Yaml.Typed

/-!
# Settings in YAML

The settings file of a project. Its keys have names of their own for what the
configuration calls database and schema, and it is always for one warehouse.
-/

namespace SqlWorkflow.Settings

open Yaml (Node NodeSchema)
open Yaml.Typed (option string map)

def workflowFile : String := "workflow_settings.yaml"

/-- The keys that may stand in the file, on any level. -/
def workflowKeys : List String :=
  ["defaultProject", "defaultDataset", "defaultLocation",
    "defaultAssertionDataset", "projectSuffix", "datasetSuffix", "namePrefix",
    "vars", "dataformCoreVersion", "defaultNotebookRuntimeOptions",
    "outputBucket", "runtimeTemplateName"]

/-- A draft with the names of keys that were passed over. -/
abbrev Reading := Draft × List String

def setString (f : Option String → Config → Config) (value : Node)
    (reading : Reading) : Option Reading :=
  (option string value).map fun x =>
    (reading.1.withConfig (f x reading.1.config), reading.2)

def notebookNodes : NodeSchema NotebookOptions where
  fields := ["outputBucket", "runtimeTemplateName"]
  path := "defaultNotebookRuntimeOptions.?."
  set field value progress :=
    match field with
    | "outputBucket" =>
      (option string value).map fun x =>
        ({ progress.1 with outputBucket := x }, progress.2)
    | "runtimeTemplateName" =>
      (option string value).map fun x =>
        ({ progress.1 with runtimeTemplateName := x }, progress.2)
    | _ => some progress

def setNotebookOptions (value : Node) (reading : Reading) : Option Reading :=
  (option (notebookNodes.read (⟨none, none⟩, reading.2)) value).map
    fun result =>
    match result with
    | none => reading
    | some (options, unknown) =>
      (reading.1.withConfig { reading.1.config with
        notebookOptions := some options }, unknown)

def variableDepth : Nat := Yaml.nestingLimit - 2

def workflowNodes : NodeSchema Draft where
  fields := ["defaultProject", "defaultDataset", "defaultLocation",
    "defaultAssertionDataset", "projectSuffix", "datasetSuffix", "namePrefix",
    "vars", "dataformCoreVersion", "defaultNotebookRuntimeOptions"]
  path := ""
  set field value reading :=
    match field with
    | "defaultProject" =>
      setString (fun x c => { c with defaultDatabase := x }) value reading
    | "defaultDataset" =>
      setString (fun x c => { c with defaultSchema := x }) value reading
    | "defaultLocation" =>
      setString (fun x c => { c with defaultLocation := x }) value reading
    | "defaultAssertionDataset" =>
      setString (fun x c => { c with assertionSchema := x }) value reading
    | "projectSuffix" =>
      setString (fun x c => { c with databaseSuffix := x }) value reading
    | "datasetSuffix" =>
      setString (fun x c => { c with schemaSuffix := x }) value reading
    | "namePrefix" =>
      setString (fun x c => { c with tablePrefix := x }) value reading
    | "vars" => (map variableDepth value).map fun x =>
      ({ reading.1 with vars := Dictionary.ofList x }, reading.2)
    | "dataformCoreVersion" =>
      setString (fun x c => { c with compilerVersion := x }) value reading
    | "defaultNotebookRuntimeOptions" => setNotebookOptions value reading
    | _ => some reading

/-- Reads a document of settings; a text without a document says nothing. -/
def readWorkflow : Option Node → Option Reading
  | none => some (Draft.empty, [])
  | some node => workflowNodes.read (Draft.empty, []) node

def parseWorkflow (content : String) : Except CompileError Config :=
  if Text.isBlankText content then .ok Config.empty
  else
    match (Yaml.document? content).bind readWorkflow with
    | none => .error (.invalidSettings workflowFile "")
    | some (draft, unknown) =>
      match rejectUnknown workflowFile workflowKeys unknown with
      | .error e => .error e
      | .ok () => draft.finish

end SqlWorkflow.Settings
