/-!
# Kinds of actions

Eight kinds of action can be configured. A config block names its kind in one
vocabulary, an entry of an action listing in another. Every kind accepts a fixed
set of keys, which depends on where the config was written.
-/

namespace SqlWorkflow.Action

/-- The kinds of action that a config may describe. -/
inductive Kind
  | table
  | view
  | incremental
  | operation
  | assertion
  | declaration
  | notebook
  | dataPreparation
  deriving DecidableEq

inductive Source
  /-- The `config` block of a SQL-template file. -/
  | block
  /-- An entry of an action listing. -/
  | listing
  /-- An entry returned by a script. -/
  | script
  deriving DecidableEq

namespace Kind

/-- The kind that a config block names. -/
def ofBlockType? : String → Option Kind
  | "table" => some .table
  | "view" => some .view
  | "incremental" => some .incremental
  | "operations" => some .operation
  | "assertion" => some .assertion
  | "declaration" => some .declaration
  | _ => none

/-- The kind that an entry of an action listing names. -/
def ofListingKey? : String → Option Kind
  | "table" => some .table
  | "view" => some .view
  | "incrementalTable" => some .incremental
  | "operation" => some .operation
  | "assertion" => some .assertion
  | "declaration" => some .declaration
  | "notebook" => some .notebook
  | "dataPreparation" => some .dataPreparation
  | _ => none

def name : Kind → String
  | .table => "table"
  | .view => "view"
  | .incremental => "incrementalTable"
  | .operation => "operation"
  | .assertion => "assertion"
  | .declaration => "declaration"
  | .notebook => "notebook"
  | .dataPreparation => "dataPreparation"

def all : List Kind :=
  [.table, .view, .incremental, .operation, .assertion, .declaration, .notebook,
    .dataPreparation]

/-- Whether actions of a kind are tables in the warehouse. -/
def isTableLike : Kind → Bool
  | .table | .view | .incremental => true
  | _ => false

@[simp] theorem ofListingKey?_name (kind : Kind) :
    ofListingKey? kind.name = some kind := by
  cases kind <;> rfl

/-- The keys of every kind. -/
def commonKeys : List String :=
  ["name", "schema", "dataset", "database", "project", "description", "tags",
    "disabled", "dependencies", "dependencyTargets", "hermetic",
    "dependOnDependencyAssertions", "columns"]

def ownKeys : Kind → List String
  | .table | .view | .incremental =>
    ["protected", "materialized", "uniqueKey", "onSchemaChange", "assertions",
      "bigquery"]
  | .operation => ["hasOutput", "assertions"]
  | _ => []

def acceptsType (kind : Kind) : Source → Bool
  | .block => true
  | .script => kind.isTableLike
  | .listing => false

/-- The keys that a config may have. -/
def allowedKeys (kind : Kind) (source : Source) : List String :=
  commonKeys ++ (kind.ownKeys ++
    ((if kind.acceptsType source then ["type"] else []) ++
      (if source = .listing then ["filename"] else [])))

end Kind

end SqlWorkflow.Action
