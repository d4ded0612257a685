import SqlWorkflow.Json.Decode
import SqlWorkflow.Settings.Config

/-!
# Overrides

Settings that one run of the compiler replaces. What an override leaves open
keeps its value; variables are replaced one by one.
-/

namespace SqlWorkflow.Settings

open Json (Decoder RecordSchema)
open Json.Decode (string option map variant)

structure Override where
  warehouse : Option Warehouse
  defaultDatabase : Option String
  defaultSchema : Option String
  defaultLocation : Option String
  assertionSchema : Option String
  databaseSuffix : Option String
  schemaSuffix : Option String
  tablePrefix : Option String
  vars : Dictionary String
  notebookOptions : Option NotebookOptions
  deriving DecidableEq

namespace Override

/-- An override that replaces nothing. -/
def empty : Override :=
  ⟨none, none, none, none, none, none, none, none, [], none⟩

def apply (o : Override) (c : Config) : Config :=
  { c with
    warehouse := o.warehouse.getD c.warehouse
    defaultDatabase := o.defaultDatabase <|> c.defaultDatabase
    defaultSchema := o.defaultSchema <|> c.defaultSchema
    defaultLocation := o.defaultLocation <|> c.defaultLocation
    assertionSchema := o.assertionSchema <|> c.assertionSchema
    databaseSuffix := o.databaseSuffix <|> c.databaseSuffix
    schemaSuffix := o.schemaSuffix <|> c.schemaSuffix
    tablePrefix := o.tablePrefix <|> c.tablePrefix
    vars := o.vars.foldl (fun vars pair => vars.insert pair.1 pair.2) c.vars
    notebookOptions := o.notebookOptions <|> c.notebookOptions }

end Override

def NotebookOptions.layout : RecordSchema NotebookOptions where
  name := "NotebookRuntimeOptions"
  fields := ["outputBucket", "runtimeTemplateName"]
  aliases := []
  strict := false
  empty := ⟨none, none⟩
  set field value record :=
    match field with
    | "outputBucket" =>
      (option string value).map fun x => { record with outputBucket := x }
    | "runtimeTemplateName" =>
      (option string value).map fun x =>
        { record with runtimeTemplateName := x }
    | _ => .ok record

namespace Override

def set (field : String) (value : Json)
    (record : Override) : Except Json.Mismatch Override :=
  match field with
  | "warehouse" =>
    (option (variant Warehouse.variants) value).map fun x =>
      { record with warehouse := x }
  | "defaultDatabase" =>
    (option string value).map fun x => { record with defaultDatabase := x }
  | "defaultSchema" =>
    (option string value).map fun x => { record with defaultSchema := x }
  | "defaultLocation" =>
    (option string value).map fun x => { record with defaultLocation := x }
  | "assertionSchema" =>
    (option string value).map fun x => { record with assertionSchema := x }
  | "databaseSuffix" =>
    (option string value).map fun x => { record with databaseSuffix := x }
  | "schemaSuffix" =>
    (option string value).map fun x => { record with schemaSuffix := x }
  | "tablePrefix" =>
    (option string value).map fun x => { record with tablePrefix := x }
  | "vars" =>
    (map string value).map fun x => { record with vars := Dictionary.ofList x }
  | "defaultNotebookRuntimeOptions" =>
    (option NotebookOptions.layout.decode value).map fun x =>
      { record with notebookOptions := x }
  | _ => .ok record

def layout : RecordSchema Override where
  name := "ProjectConfigOverride"
  fields := ["warehouse", "defaultDatabase", "defaultSchema", "defaultLocation",
    "assertionSchema", "databaseSuffix", "schemaSuffix", "tablePrefix", "vars",
    "defaultNotebookRuntimeOptions"]
  aliases := []
  strict := true
  empty := empty
  set := set

def decode : Decoder Override := layout.decode

end Override

end SqlWorkflow.Settings
