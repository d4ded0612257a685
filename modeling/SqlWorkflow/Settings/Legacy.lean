import SqlWorkflow.Json.Typed
import SqlWorkflow.Settings.Draft

/-!
# Settings in JSON

The deprecated settings file is a JSON object. It is read member by member, and
what follows it in the file is not looked at.
-/

namespace SqlWorkflow.Settings

open Json (Outline Progress ReadError TextSchema)
open Json.Typed (option string variant map)

def legacyFile : String := "dataform.json"

/-- The keys that may stand in the file, on any level. -/
def legacyKeys : List String :=
  ["warehouse", "defaultDatabase", "defaultSchema", "defaultLocation",
    "assertionSchema", "databaseSuffix", "schemaSuffix", "tablePrefix", "vars",
    "dataformCoreVersion", "defaultNotebookRuntimeOptions", "outputBucket",
    "runtimeTemplateName"]

/-- Changes the configuration of a draft that is being read. -/
def update {α : Type} (result : Except ReadError α) (progress : Progress Draft)
    (f : α → Config → Config) : Except ReadError (Progress Draft) :=
  result.map fun x =>
    { progress with
      record := progress.record.withConfig (f x progress.record.config) }

/-- How defaults for notebook runtimes are written, for a field with this
segment on its path. -/
def notebookSchema (segment : String) : TextSchema NotebookOptions where
  name := "NotebookRuntimeOptions"
  fields := ["outputBucket", "runtimeTemplateName"]
  path := segment ++ ".?."
  set field _ value progress :=
    match field with
    | "outputBucket" => (option string value).map fun x =>
      { progress with record := { progress.record with outputBucket := x } }
    | "runtimeTemplateName" => (option string value).map fun x =>
      { progress with
        record := { progress.record with runtimeTemplateName := x } }
    | _ => .ok progress

def readNotebookOptions (segment : String) (value : Outline)
    (progress : Progress Draft) : Except ReadError (Progress Draft) :=
  (option ((notebookSchema segment).read ⟨⟨none, none⟩, progress.unknown⟩)
    value).map fun result =>
    match result with
    | none => progress
    | some p =>
      ⟨progress.record.withConfig { progress.record.config with
        notebookOptions := some p.record }, p.unknown⟩

def legacySchema : TextSchema Draft where
  name := "LegacyProjectSettings"
  fields := ["warehouse", "defaultDatabase", "defaultSchema", "defaultLocation",
    "assertionSchema", "databaseSuffix", "schemaSuffix", "tablePrefix", "vars",
    "dataformCoreVersion", "defaultNotebookRuntimeOptions"]
  path := ""
  set field segment value progress :=
    match field with
    | "warehouse" =>
      update (option (variant Warehouse.variants) value) progress fun x c =>
      { c with warehouse := x.getD .bigquery }
    | "defaultDatabase" => update (option string value) progress fun x c =>
      { c with defaultDatabase := x }
    | "defaultSchema" => update (option string value) progress fun x c =>
      { c with defaultSchema := x }
    | "defaultLocation" => update (option string value) progress fun x c =>
      { c with defaultLocation := x }
    | "assertionSchema" => update (option string value) progress fun x c =>
      { c with assertionSchema := x }
    | "databaseSuffix" => update (option string value) progress fun x c =>
      { c with databaseSuffix := x }
    | "schemaSuffix" => update (option string value) progress fun x c =>
      { c with schemaSuffix := x }
    | "tablePrefix" => update (option string value) progress fun x c =>
      { c with tablePrefix := x }
    | "vars" => (map (Json.nestingLimit - 1) value).map fun x =>
      { progress with
        record := { progress.record with vars := Dictionary.ofList x } }
    | "dataformCoreVersion" => update (option string value) progress fun x c =>
      { c with compilerVersion := x }
    | "defaultNotebookRuntimeOptions" =>
      readNotebookOptions segment value progress
    | _ => .ok progress

def parseLegacy (content : String) : Except CompileError Config :=
  let text := content.toList
  match legacySchema.read ⟨Draft.empty, []⟩ (Json.outlineValue text).value with
  | .error e => .error (.invalidSettings legacyFile (e.message text))
  | .ok progress =>
    match rejectUnknown legacyFile legacyKeys progress.unknown with
    | .error e => .error e
    | .ok () => progress.record.finish

end SqlWorkflow.Settings
