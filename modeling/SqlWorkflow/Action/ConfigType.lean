import SqlWorkflow.Action.Fault

/-!
# The type of a config

Configs in SQL-template files and those published by scripts name their kind of
action themselves.
-/

namespace SqlWorkflow.Action

/-- The kind that a config names; a config without a type is that of a table. -/
def Kind.ofConfig (value : Json) : Except Fault Kind :=
  match value.get? "type" with
  | none => .ok .table
  | some (.string name) =>
    match Kind.ofBlockType? name with
    | some kind => .ok kind
    | none => .error (.unknownType name)
  | some other => .error (.typeNotString other)

end SqlWorkflow.Action
