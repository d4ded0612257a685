import SqlWorkflow.Target

/-!
# Warehouses

The warehouses that a project may be compiled for. They differ in how an address
and a string are quoted in SQL, and in whether a location has to be known.
-/

namespace SqlWorkflow

inductive Warehouse
  | bigquery
  | snowflake
  | postgres
  | redshift
  | presto
  | sqldatawarehouse
  deriving DecidableEq

namespace Warehouse

def all : List Warehouse :=
  [.bigquery, .snowflake, .postgres, .redshift, .presto, .sqldatawarehouse]

def name : Warehouse → String
  | .bigquery => "bigquery"
  | .snowflake => "snowflake"
  | .postgres => "postgres"
  | .redshift => "redshift"
  | .presto => "presto"
  | .sqldatawarehouse => "sqldatawarehouse"

/-- The words for the warehouses, with the warehouses. -/
def variants : List (String × Warehouse) :=
  all.map fun w => (w.name, w)

def requiresDefaultLocation (w : Warehouse) : Bool :=
  w == .bigquery

/-- The parts of a target that are given. -/
def parts (t : Target) : List String :=
  t.database.toList ++ (t.schema.toList ++ [t.name])

/-- A target as SQL refers to it: quoted as a whole, or part by part. -/
def quoteTarget (w : Warehouse) (t : Target) : String :=
  match w with
  | .bigquery => "\x60" ++ (".".intercalate (parts t) ++ "\x60")
  | _ => ".".intercalate ((parts t).map fun part => "\"" ++ (part ++ "\""))

/-- A character inside a string literal that escapes by backslashes. -/
def backslashed (c : Char) : List Char :=
  if c = '\\' ∨ c = '\'' then ['\\', c] else [c]

/-- A character inside a string literal that doubles its marks. -/
def doubled (c : Char) : List Char :=
  if c = '\'' then ['\'', '\''] else [c]

def quoteString (w : Warehouse) (value : String) : String :=
  let inside := match w with
    | .bigquery => value.toList.flatMap backslashed
    | _ => value.toList.flatMap doubled
  String.ofList ('\'' :: (inside ++ ['\'']))

end Warehouse

end SqlWorkflow
