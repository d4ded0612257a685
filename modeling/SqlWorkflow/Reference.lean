import SqlWorkflow.Target
import SqlWorkflow.Text.Cut

/-!
# References

An action refers to another by name; the schema and the database narrow the
choice. A reference may say whether the assertions of the action are depended on
too.
-/

namespace SqlWorkflow

structure Reference where
  database : Option String
  schema : Option String
  name : String
  /-- Whether this reference wants the dependent assertions; open if it does not
  say. -/
  includeDependentAssertions : Option Bool
  deriving DecidableEq

namespace Reference

def named (name : String) : Reference :=
  ⟨none, none, name, none⟩

/-- A reference by a name in a schema, in a database if that is given. -/
def qualified (database : Option String) (schema name : String) : Reference :=
  ⟨database, some schema, name, none⟩

/-- Reads `name`, `schema.name` or `database.schema.name`; with more dots than
that, all is the name. -/
def parse (text : String) : Reference :=
  match Text.split '.' text with
  | [schema, name] => qualified none schema name
  | [database, schema, name] => qualified (some database) schema name
  | _ => named text

/-- The parts of a reference, joined by dots. -/
def text (r : Reference) : String :=
  Target.dotted r.database r.schema r.name

end Reference

end SqlWorkflow
