import SqlWorkflow.Json.Members
import SqlWorkflow.Settings.Config

/-!
# Settings as JSON

The settings that a compilation used are part of its result. What is not set is
left out, except the warehouse.
-/

namespace SqlWorkflow

open Json (Members)

def Dictionary.toJson (dictionary : Dictionary String) : Json :=
  .object (dictionary.map fun pair => (pair.1, .string pair.2))

/-- A member for a dictionary that may be empty. -/
def Dictionary.toMember (key : String)
    (dictionary : Dictionary String) : Members :=
  if dictionary.isEmpty then []
  else Members.one key (Dictionary.toJson dictionary)

namespace Settings

def NotebookOptions.toJson (o : NotebookOptions) : Json :=
  .object (Members.optional "outputBucket" .string o.outputBucket ++
    Members.optional "runtimeTemplateName" .string o.runtimeTemplateName)

def Config.toJson (c : Config) : Json :=
  .object (Members.one "warehouse" (.string c.warehouse.name) ++
    Members.optional "defaultDatabase" .string c.defaultDatabase ++
    Members.optional "defaultSchema" .string c.defaultSchema ++
    Members.optional "defaultLocation" .string c.defaultLocation ++
    Members.optional "assertionSchema" .string c.assertionSchema ++
    Members.optional "databaseSuffix" .string c.databaseSuffix ++
    Members.optional "schemaSuffix" .string c.schemaSuffix ++
    Members.optional "tablePrefix" .string c.tablePrefix ++
    Dictionary.toMember "vars" c.vars ++
    Members.optional "dataformCoreVersion" .string c.compilerVersion ++
    Members.optional "defaultNotebookRuntimeOptions" NotebookOptions.toJson
      c.notebookOptions)

end Settings

end SqlWorkflow
