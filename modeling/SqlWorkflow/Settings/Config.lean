import SqlWorkflow.Dictionary
import SqlWorkflow.Warehouse

/-!
# Project configuration

What the settings of a project say, whichever file they were read from. The
active configuration includes the overrides of one run; the canonical one has
neither these nor the suffixes and the prefix by which environments differ.
-/

namespace SqlWorkflow.Settings

structure NotebookOptions where
  outputBucket : Option String
  runtimeTemplateName : Option String
  deriving DecidableEq

structure Config where
  warehouse : Warehouse
  defaultDatabase : Option String
  defaultSchema : Option String
  defaultLocation : Option String
  assertionSchema : Option String
  databaseSuffix : Option String
  schemaSuffix : Option String
  tablePrefix : Option String
  vars : Dictionary String
  compilerVersion : Option String
  notebookOptions : Option NotebookOptions
  deriving DecidableEq

namespace Config

/-- Settings that say nothing. -/
def empty : Config :=
  ⟨.bigquery, none, none, none, none, none, none, none, [], none, none⟩

/-- The same settings without suffixes and prefix. -/
def canonical (c : Config) : Config :=
  { c with databaseSuffix := none, schemaSuffix := none, tablePrefix := none }

/-- The schema of assertions in a project that does not name one. -/
def defaultAssertionSchema : String := "dataform_assertions"

def schemaOfAssertions (c : Config) : String :=
  c.assertionSchema.getD defaultAssertionSchema

end Config

structure Pair where
  /-- The settings file with the overrides of the run. -/
  active : Config
  /-- The settings file alone, without suffixes and prefix. -/
  canonical : Config
  deriving DecidableEq

end SqlWorkflow.Settings
