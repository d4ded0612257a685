import SqlWorkflow.Expr.Basic
import SqlWorkflow.Reference

/-!
# Built-in names

The names that a placeholder may use without a script runtime: the functions
that refer to actions, those that ask for the action itself, a conditional, and
a few of the settings.
-/

namespace SqlWorkflow.Link

inductive Builtin
  /-- Refers to an action; the place depends on it. -/
  | ref
  /-- Refers to an action without depending on it. -/
  | resolve
  | self
  | name
  | schema
  | database
  | incremental
  | when
  deriving DecidableEq

/-- The built-in function that a callee names. -/
def Builtin.of? (callee : Expr) : Option Builtin :=
  match callee.path? with
  | some ["ref"] => some .ref
  | some ["resolve"] => some .resolve
  | some ["self"] => some .self
  | some ["name"] => some .name
  | some ["schema"] => some .schema
  | some ["database"] => some .database
  | some ["incremental"] => some .incremental
  | some ["when"] => some .when
  | _ => none

/-- A setting that a placeholder may ask for. -/
inductive Setting
  | variable (name : String)
  | defaultDatabase
  | defaultSchema
  | defaultLocation
  deriving DecidableEq

/-- The setting that a path names. -/
def Setting.of? (e : Expr) : Option Setting :=
  match e.path? with
  | some ["dataform", "projectConfig", "vars", name] => some (.variable name)
  | some ["dataform", "projectConfig", "defaultDatabase"] =>
    some .defaultDatabase
  | some ["dataform", "projectConfig", "defaultSchema"] => some .defaultSchema
  | some ["dataform", "projectConfig", "defaultLocation"] =>
    some .defaultLocation
  | _ => none

/-- The string under the first of some keys that has one. -/
def firstString? (members : Json.Members) : List String → Option String
  | [] => none
  | key :: keys =>
    match (Json.Members.get? members key).bind Json.string? with
    | some s => some s
    | none => firstString? members keys

/-- The reference that an object describes. -/
def referenceOfMembers? (members : Json.Members) : Option Reference :=
  (firstString? members ["name"]).map fun name =>
    { database := firstString? members ["database", "project"]
      schema := firstString? members ["schema", "dataset"]
      name := name
      includeDependentAssertions :=
        (Json.Members.get? members "includeDependentAssertions").bind
          Json.bool? }

/-- The reference that arguments describe: one to three strings, or an
object. -/
def referenceOfValues? : List Json → Option Reference
  | [.string name] => some (.named name)
  | [.string schema, .string name] => some (.qualified none schema name)
  | [.string database, .string schema, .string name] =>
    some (.qualified (some database) schema name)
  | [.object members] => referenceOfMembers? members
  | _ => none

/-- The reference that literal arguments describe. -/
def referenceOf? (arguments : List Expr) : Option Reference :=
  (Expr.listToJson? arguments).bind referenceOfValues?

end SqlWorkflow.Link
